import JavaGraph.Proofs.Scan.Scoping
import JavaGraph.Proofs.Session.Uses
/-!
# Fields and local variables

A function accesses a field of its type where the name of the field is used in its block and no local
variable or parameter of the name is in scope, by the block structure of the code.
-/

namespace JavaGraph

open List (Forall₂)
open BodyEvent (lexicalAccesses)

namespace Session

/-- After every run, a function accesses a field of its type exactly where the name of the field is
used in its block, and alone only outside the scopes of the parameters and local variables of that
name, if the constructs of the block keep their scopes. -/
theorem accessesTo_own_run (before later : List Step) {scope : Scope} {config : ScanConfig}
    {source : SourceText} {declared : Declarations} {type : DeclaredType}
    (hnew : (run before).ScansNew scope source)
    (hd : ((run before).passes scope config source).1 = .ok declared)
    (ht : type ∈ declared.types) :
    let graph := (run (before ++ .scan config source.path source.text :: later)).project.store.graph
    ∃ x, graph.types.get? type.id = some x ∧ Forall₂ (fun function node =>
      ∀ {block : Tree} {field : FieldId} {y : Field}, node.childOfKind? .block = some block →
        graph.fields.get? field = some y →
        (x.fields.filter fun other => (graph.fields.get? other).any (·.name = y.name)) = [field] →
        (∀ inner ∈ block.codeNodes, inner.KeepsScopes y.name) →
        graph.accessesTo function field =
          if config.recordAccesses then
            lexicalAccesses y.name (graph.hasParameter function y.name) block
          else [])
      x.functions type.functionNodes := by
  intro graph
  have hrun : ∃ x, graph.types.get? type.id = some x ∧
      Forall₂ (type.UsesCounted config.recordAccesses graph) x.functions type.functionNodes :=
    usesCounted_run before later hnew hd ht
  apply hrun.imp
  intro x hx
  apply hx.imp_right
  apply Forall₂.imp
  intro function node h block field y hb hy hsingle hkeeps
  have hown : graph.lastFieldNamed? type.id y.name = some field :=
    Graph.lastFieldNamed?_of_single hx.1 hsingle
  have hseen : graph.seenFieldNamed? (type.id :: type.outer) y.name = some field := by
    show List.findSome? _ _ = _
    rw [List.findSome?_cons, hown]
  have hf : field ∈ x.fields := Graph.mem_of_lastFieldNamed? hx.1 hown
  rw [h.accesses hb (List.mem_cons_self ..) hx.1 hf hy, hown, hseen,
    BodyEvent.accessed_scoped (h.shaped hb) hkeeps]

/-- A test of the block of the first type's only function, and of the graph, when the three passes over
a new file are done. -/
private def soleFunction (session : Session) (source : SourceText) (test : Tree → Graph → Bool) :
    Bool :=
  session.scopes.all fun scope =>
    let result := session.passes scope {} source
    result.1.toOption.any fun declared => declared.types.any fun type =>
      type.id = ⟨0⟩ ∧ type.functionNodes.length = 1 ∧ type.functionNodes.head?.any fun node =>
        (node.childOfKind? .block).any fun block => test block result.2.store.graph

private theorem exists_soleFunction {steps : List Step} {artifact? : Option ArtifactId}
    {source : SourceText} {test : Tree → Graph → Bool}
    (hs : (run steps).scopes.map (·.artifact?) = [artifact?])
    (hn : (run steps).project.store.graph.unitAt? source.path artifact? = none)
    (h : soleFunction (run steps) source test = true) :
    ∃ scope declared type node block, (run steps).ScansNew scope source ∧
      ((run steps).passes scope {} source).1 = .ok declared ∧ type ∈ declared.types ∧
      type.id = ⟨0⟩ ∧ type.functionNodes = [node] ∧ node.childOfKind? .block = some block ∧
      test block (run (steps ++ [.scan {} source.path source.text])).project.store.graph = true := by
  obtain ⟨scope, hscopes, hartifact⟩ := List.map_eq_singleton_iff.1 hs
  rw [← hartifact] at hn
  have hnew : (run steps).ScansNew scope source := ⟨hscopes, hn⟩
  rw [soleFunction, hscopes, List.all_cons, Bool.and_eq_true] at h
  obtain ⟨declared, hd, hany⟩ := ok_of_any h.1
  obtain ⟨type, ht, hfirst⟩ := List.any_eq_true.1 hany
  obtain ⟨hid, hlength, hnode⟩ := of_decide_eq_true hfirst
  obtain ⟨node, hhead, hblock⟩ := (Option.any_eq_true ..).1 hnode
  obtain ⟨block, hb, htest⟩ := (Option.any_eq_true ..).1 hblock
  obtain ⟨only, honly⟩ := List.length_eq_one_iff.1 hlength
  rw [honly, List.head?_cons, Option.some.injEq] at hhead
  rw [← hnew.graph_run] at htest
  exact ⟨scope, declared, type, node, block, hnew, hd, ht, hid, hhead ▸ honly, hb, htest⟩

/-- A function writes a field, and reads it behind a block and a loop that have local variables with
its name. -/
theorem accessesTo_own_blocks :
    let before : List Step := [.addArtifact "app" [], .enter (some ⟨0⟩)]
    let source : SourceText := ⟨"A.java", "class A \x7b int x; void m() \x7b\n" ++
      "x = 1; \x7b int x = 2; f(x); \x7d\n" ++
      "for (int x : a) f(x); f(x); \x7d \x7d"⟩
    let graph := (run (before ++ [.scan {} source.path source.text])).project.store.graph
    ∃ scope declared type x node block y, (run before).ScansNew scope source ∧
      ((run before).passes scope {} source).1 = .ok declared ∧ type ∈ declared.types ∧
      graph.types.get? type.id = some x ∧ x.functions = [⟨0⟩] ∧ type.functionNodes = [node] ∧
      node.childOfKind? .block = some block ∧ graph.fields.get? ⟨0⟩ = some y ∧
      (x.fields.filter fun other => (graph.fields.get? other).any (·.name = y.name)) = [⟨0⟩] ∧
      (∀ inner ∈ block.codeNodes, inner.KeepsScopes y.name) ∧
      graph.accessesTo ⟨0⟩ ⟨0⟩ = [(2, .write), (3, .read)] := by
  intro before source graph
  have hscopes : (run before).scopes.map (·.artifact?) = [some ⟨0⟩] := by decide +kernel
  have hpath : (run before).project.store.graph.unitAt? source.path (some ⟨0⟩) = none := by
    decide +kernel
  have hfacts : soleFunction (run before) source (fun block graph =>
      (graph.types.get? ⟨0⟩).map (fun x => (x.fields, x.functions)) = some ([⟨0⟩], [⟨0⟩]) ∧
        (graph.fields.get? ⟨0⟩).map (·.name) = some "x" ∧ graph.hasParameter ⟨0⟩ "x" = false ∧
        (∀ inner ∈ block.codeNodes, inner.KeepsScopes "x") ∧
        lexicalAccesses "x" false block = [(2, .write), (3, .read)]) = true := by
    decide +kernel
  obtain ⟨scope, declared, type, node, block, hnew, hd, ht, hid, hnodes, hb, htest⟩ :=
    exists_soleFunction hscopes hpath hfacts
  obtain ⟨hmembers, hfield, hparameter, hkeeps, haccesses⟩ := of_decide_eq_true htest
  obtain ⟨y, hy, hname⟩ := Option.map_eq_some_iff.1 hfield
  obtain ⟨x, hx, hall⟩ := accessesTo_own_run before [] hnew hd ht
  rw [hid] at hx
  change (graph.types.get? ⟨0⟩).map _ = _ at hmembers
  rw [hx, Option.map_some, Option.some.injEq, Prod.mk.injEq] at hmembers
  obtain ⟨hfields, hfunctions⟩ := hmembers
  have hsingle : (x.fields.filter fun other =>
      (graph.fields.get? other).any (·.name = y.name)) = [⟨0⟩] := by
    rw [hfields, List.filter_cons_of_pos (by rw [hy]; simp)]
    rfl
  rw [hfunctions, hnodes] at hall
  rw [← hname] at hparameter hkeeps haccesses
  have hlexical := (forall₂_head hall rfl).1 hb hy hsingle hkeeps
  rw [hparameter] at hlexical
  exact ⟨scope, declared, type, x, node, block, y, hnew, hd, ht, hid ▸ hx, hfunctions, hnodes, hb,
    hy, hsingle, hkeeps, hlexical.trans haccesses⟩

/-- A loop runs over a field and has a variable with its name. In what the loop runs over the name
stands for the field, but the function has no access of it. -/
theorem accessesTo_forEach_iterated :
    let before : List Step := [.addArtifact "app" [], .enter (some ⟨0⟩)]
    let source : SourceText :=
      ⟨"A.java", "class A \x7b int[] x; void m() \x7b for (int x : x) \x7b \x7d \x7d \x7d"⟩
    let graph := (run (before ++ [.scan {} source.path source.text])).project.store.graph
    (OpenProject.parsed {} source).errors = [] ∧
    ∃ scope declared type x node block y, (run before).ScansNew scope source ∧
      ((run before).passes scope {} source).1 = .ok declared ∧ type ∈ declared.types ∧
      graph.types.get? type.id = some x ∧ x.fields = [⟨0⟩] ∧ x.functions = [⟨0⟩] ∧
      type.functionNodes = [node] ∧ node.childOfKind? .block = some block ∧
      graph.fields.get? ⟨0⟩ = some y ∧ y.name = "x" ∧
      graph.hasParameter ⟨0⟩ y.name = false ∧
      lexicalAccesses y.name false block = [(1, .read)] ∧ graph.accessesTo ⟨0⟩ ⟨0⟩ = [] := by
  intro before source graph
  have herrors : (OpenProject.parsed {} source).errors = [] := by decide +kernel
  have hscopes : (run before).scopes.map (·.artifact?) = [some ⟨0⟩] := by decide +kernel
  have hpath : (run before).project.store.graph.unitAt? source.path (some ⟨0⟩) = none := by
    decide +kernel
  have hfacts : soleFunction (run before) source (fun block graph =>
      (graph.types.get? ⟨0⟩).map (fun x => (x.fields, x.functions)) = some ([⟨0⟩], [⟨0⟩]) ∧
        (graph.fields.get? ⟨0⟩).map (·.name) = some "x" ∧ graph.hasParameter ⟨0⟩ "x" = false ∧
        lexicalAccesses "x" false block = [(1, .read)] ∧ graph.accessesTo ⟨0⟩ ⟨0⟩ = []) = true := by
    decide +kernel
  obtain ⟨scope, declared, type, node, block, hnew, hd, ht, hid, hnodes, hb, htest⟩ :=
    exists_soleFunction hscopes hpath hfacts
  obtain ⟨hmembers, hfield, hparameter, hlexical, haccesses⟩ := of_decide_eq_true htest
  obtain ⟨x, hx, hxs⟩ := Option.map_eq_some_iff.1 hmembers
  obtain ⟨y, hy, hname⟩ := Option.map_eq_some_iff.1 hfield
  rw [Prod.mk.injEq] at hxs
  rw [← hname] at hparameter hlexical
  exact ⟨herrors, scope, declared, type, x, node, block, y, hnew, hd, ht, hid ▸ hx, hxs.1, hxs.2,
    hnodes, hb, hy, hname, hparameter, hlexical, haccesses⟩

end Session

end JavaGraph
