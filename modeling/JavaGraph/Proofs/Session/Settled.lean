import Mathlib.Data.List.Induction
import JavaGraph.Proofs.Scan.Settled
import JavaGraph.Proofs.Session.Lifecycle
/-!
# Whose types are referred to

A step of a run scans a new file, or it only releases placeholders. What a file refers to is
settled once and for all when it is scanned: a type of its own universe if that has the name by
then, and else a type of a dependency. What is declared later changes no reference.
-/

/-!
## Scans only append

The scan of a file under a new path brings in a unit, completes placeholders of the universe of its
scope, and adds nodes. Everything else that is there stays as it is, whether the scan succeeds or
fails.
-/

namespace JavaGraph

open JavaGraph.Graph (Since outline)

/-- A graph in which a new unit has come in and nothing has changed but for that. -/
structure Graph.Appended (latest : UnitId) (path : String) (home : Universe) (before after : Graph) :
    Prop where
  unknown : before.units.get? latest = none
  known : ∃ node, after.units.get? latest = some node ∧ node.path = path ∧ node.artifact = home
  /-- Declared types are as they were. -/
  declared : ∀ {id x}, before.types.get? id = some x → x.isComplete = true →
    after.types.get? id = some x
  /-- Types of other universes are as they were. -/
  foreign : ∀ {id x}, before.types.get? id = some x → x.home ≠ home →
    after.types.get? id = some x
  /-- A placeholder is as it was, or the new unit declares it. -/
  placeholder : ∀ {id x}, before.types.get? id = some x → x.isComplete = false →
    after.types.get? id = some x ∨ ∃ y, after.types.get? id = some y ∧ y.name = x.name ∧
      y.home = x.home ∧ y.state = .complete latest
  field : ∀ {id x}, before.fields.get? id = some x → after.fields.get? id = some x
  function : ∀ {id x}, before.functions.get? id = some x → after.functions.get? id = some x
  parameter : ∀ {id x}, before.parameters.get? id = some x → after.parameters.get? id = some x
  accesses : before.accesses.toList <+: after.accesses.toList
  textFiles : after.textFiles = before.textFiles
  lines : after.lines = before.lines
  /-- A unit is released from what the new unit declares, and from nothing else. -/
  unit : ∀ {id x}, before.units.get? id = some x → after.units.get? id = some { x with
    requiredTypes := x.requiredTypes.filter fun type =>
      (after.types.get? type).all (·.state ≠ .complete latest) }
  /-- The new unit is the last one of its artifact. -/
  artifact : ∀ {id x}, before.artifacts.get? id = some x → after.artifacts.get? id = some
    (if home = some id then { x with units := x.units ++ [latest] } else x)

namespace Graph

variable {graph after : Graph} {home : Universe} {path : String}

/-- What a unit still requires is what the new unit does not declare. -/
private theorem requiredTypes_eq (hc : graph.Consistent) (hc' : after.Consistent)
    (hs : Since graph.units.nextId home graph after) {k : UnitId} {x y : CompilationUnit}
    (hx : graph.units.get? k = some x) (hy : after.units.get? k = some y) :
    y.requiredTypes = x.requiredTypes.filter fun type =>
      (after.types.get? type).all (·.state ≠ .complete graph.units.nextId) := by
  obtain ⟨p, hp, hdeclared⟩ := hs.requires (Arena.ne_nextId hx) hx hy
  rw [hp]
  refine List.filter_congr fun id hid => ?_
  obtain ⟨type, ht, hi, -⟩ := hc.required_placeholder hx hid
  cases hpid : p id with
  | true =>
    obtain ⟨type', ht', hi', -⟩ := hc'.required_placeholder hy
      (hp ▸ List.mem_filter.2 ⟨hid, hpid⟩)
    rw [ht']
    symm
    simp only [Option.all_some, decide_eq_true_eq]
    intro he
    rw [TypeNode.isComplete_eq_true.2 ⟨_, he⟩] at hi'
    cases hi'
  | false =>
    obtain ⟨z, hz, hcz⟩ := hdeclared hpid
    rcases hs.placeholder ht hi with hsame | ⟨u, hu, hsu⟩
    · rw [hz] at hsame
      cases hsame
      rw [hi] at hcz
      cases hcz
    · rw [hu]
      simp [hsu]

/-- A unit that has only changed what it may change has only appended. -/
private theorem Appended.of_since (hc : graph.Consistent) (hc' : after.Consistent)
    (hs : Since graph.units.nextId home graph after)
    (hn : ∃ node, after.units.get? graph.units.nextId = some node ∧ node.path = path ∧
      node.artifact = home)
    (ht : after.textFiles = graph.textFiles) (hl : after.lines = graph.lines)
    (ha : ∀ {id x}, graph.artifacts.get? id = some x → after.artifacts.get? id = some
      (if home = some id then { x with units := x.units ++ [graph.units.nextId] } else x)) :
    Appended graph.units.nextId path home graph after := by
  have hnew : ∀ {id x}, graph.types.get? id = some x →
      x.state ≠ .complete graph.units.nextId := by
    intro id x hx hsx
    obtain ⟨node, hnode, -⟩ := hc.complete_declared hx hsx
    rw [Arena.get?_nextId] at hnode
    cases hnode
  have hplaceholder : ∀ {id x}, graph.types.get? id = some x → x.isComplete = false →
      after.types.get? id = some x ∨ ∃ y, after.types.get? id = some y ∧ y.name = x.name ∧
        y.home = x.home ∧ y.state = .complete graph.units.nextId := by
    intro id x hx hi
    rcases hs.placeholder hx hi with hy | ⟨y, hy, hsy⟩
    · exact .inl hy
    · obtain ⟨y', hy', hname, hhome⟩ := hs.known hx
      rw [hy] at hy'
      cases hy'
      exact .inr ⟨y, hy, hname, hhome, hsy⟩
  refine ⟨Arena.get?_nextId _, hn, ?_, ?_, hplaceholder, hs.extended.field,
    hs.extended.function, hs.extended.parameter, hs.accesses, ht, hl, ?_, ha⟩
  · exact fun hx hi => hs.foreign hx hi (hnew hx)
  · intro id x hx hh
    cases hi : x.isComplete with
    | true => exact hs.foreign hx hi (hnew hx)
    | false =>
      rcases hplaceholder hx hi with hy | ⟨y, hy, -, hhome, hsy⟩
      · exact hy
      · -- What the new unit declares belongs to its own universe.
        obtain ⟨node, hnode, -, hartifact⟩ := hn
        obtain ⟨owner, howner, hm⟩ := hc'.complete_declared hy hsy
        obtain ⟨z, hz, -, -, hzo⟩ := hc'.declared_complete howner hm
        rw [hnode] at howner
        cases howner
        rw [hy] at hz
        cases hz
        exact absurd (hhome.symm.trans (hzo.trans hartifact)) hh
  · intro k x hx
    have ho := hs.others (Arena.ne_nextId hx)
    rw [hx] at ho
    obtain ⟨y, hy, hyx⟩ := Option.map_eq_some_iff.1 ho
    rw [hy, ← requiredTypes_eq hc hc' hs hx hy]
    have he : { outline y with requiredTypes := y.requiredTypes } =
        { outline x with requiredTypes := y.requiredTypes } := by rw [hyx]
    exact congrArg some he

end Graph

namespace OpenProject

variable {opened : OpenProject} {path : String}

/-- The scan of a new path in a sound and tidy project only appends. -/
theorem appended_scanSource (hs : opened.Sound) (ht : opened.Tidy) (config : ScanConfig)
    (text : String) (hn : opened.store.graph.unitAt? path opened.scope.artifact? = none) :
    Graph.Appended opened.store.graph.units.nextId path opened.scope.artifact? opened.store.graph
      (scanSource config path text opened).2.store.graph := by
  have hsound := scanSource_sound opened config path text hs
  unfold scanSource at hsound ⊢
  rw [scanParsed_new _ _ hn] at hsound ⊢
  have hs' : (opened.seeing path).Sound := hs
  have ht' : (opened.seeing path).Tidy := ⟨ht.graph, ht.borrowed⟩
  generalize parseSource text (config.parseOptions path) = parsed at hsound ⊢
  generalize (opened.files.idOf path).1 = file at hsound ⊢
  cases hr : scanTypes config.recordAccesses ⟨opened.store.graph.units.nextId, file⟩
      (Header.ofTree file parsed.root).1 path parsed.root
      ((opened.seeing path).initial file path parsed) with
  | mk result s =>
    obtain ⟨hp, -, -⟩ := scanned_diagonal hs' ht' hr
    rw [scanNew_run hs'.artifact_known hn hr] at hsound ⊢
    obtain ⟨node, hnode, hpath, hartifact⟩ := hp.graphs.since.extended.unit
      (unit_initial (opened.seeing path) file path parsed)
    refine .of_since hs.consistent hsound.consistent
      ((since_withSource ..).trans hp.graphs.since) ⟨node, hnode, hpath, hartifact⟩
      hp.graphs.surroundings.textFiles hp.graphs.surroundings.lines fun hx => ?_
    change s.store.graph.artifacts.get? _ = _
    rw [hp.graphs.surroundings.artifacts]
    exact (get?_artifacts_withSource opened.store.graph ..).trans (congrArg _ hx)

end OpenProject

namespace Session

/-- After every run, the scan of a file under a path that is new in its scope only appends. -/
theorem appended_scan (steps : List Step) {scope : Scope} (config : ScanConfig) {path : String}
    (text : String) (hs : (run steps).scopes = [scope])
    (hn : (run steps).project.store.graph.unitAt? path scope.artifact? = none) :
    Graph.Appended (run steps).project.store.graph.units.nextId path scope.artifact?
      (run steps).project.store.graph
      (run (steps ++ [.scan config path text])).project.store.graph := by
  have hsound := sound_run steps
  have htidy := tidy_run steps
  unfold Sound at hsound
  rw [hs] at hsound
  have hopened : OpenProject.Sound { (run steps).project with scope } := hsound
  have happended := OpenProject.appended_scanSource hopened
    ⟨htidy.graph, htidy.borrowed scope (by rw [hs]; exact List.mem_cons_self ..)⟩ config text hn
  unfold run at happended ⊢
  rw [List.foldl_append]
  change Graph.Appended _ _ _ _ (Step.run (run steps) (.scan config path text)).project.store.graph
  unfold Step.run inScope?
  simp only [hs]
  exact happended

/-- The second file completes the placeholder that the first one has brought in. -/
theorem appended_scan_second :
    let steps : List Step := [.addArtifact "app" [], .enter (some ⟨0⟩),
      .scan {} "A.java" "class A \x7b B b; \x7d"]
    ∃ scope, (run steps).scopes = [scope] ∧
      (run steps).project.store.graph.unitAt? "B.java" scope.artifact? = none ∧
      Graph.Appended (run steps).project.store.graph.units.nextId "B.java" scope.artifact?
        (run steps).project.store.graph
        (run (steps ++ [.scan {} "B.java" "class B \x7b \x7d"])).project.store.graph := by
  intro steps
  have hscopes : (run steps).scopes.map (·.artifact?) = [some ⟨0⟩] := by decide +kernel
  obtain ⟨scope, hs, hartifact⟩ := List.map_eq_singleton_iff.1 hscopes
  have hn : (run steps).project.store.graph.unitAt? "B.java" scope.artifact? = none := by
    rw [hartifact]
    decide +kernel
  exact ⟨scope, hs, hn, appended_scan steps {} _ hs hn⟩

end Session

end JavaGraph

/-! ## References -/

namespace JavaGraph

open JavaGraph.Action

namespace Graph

/-- Declared types and members stay as they are, and types keep their names and universes. -/
structure Preserves (before after : Graph) : Prop extends KeepsMembers before after where
  declared : ∀ {id x}, before.types.get? id = some x → x.isComplete = true →
    after.types.get? id = some x
  known : ∀ {id x}, before.types.get? id = some x →
    ∃ y, after.types.get? id = some y ∧ y.name = x.name ∧ y.home = x.home

variable {graph middle after : Graph}

/-- Nothing has changed. -/
theorem Preserves.refl (graph : Graph) : Preserves graph graph :=
  ⟨.refl _, fun hx _ => hx, fun hx => ⟨_, hx, rfl, rfl⟩⟩

/-- More and more is scanned. -/
theorem Preserves.trans (h : Preserves graph middle) (h' : Preserves middle after) :
    Preserves graph after where
  toKeepsMembers := h.toKeepsMembers.trans h'.toKeepsMembers
  declared hx hc := h'.declared (h.declared hx hc) hc
  known hx := by
    obtain ⟨y, hy, hn, hh⟩ := h.known hx
    obtain ⟨z, hz, hn', hh'⟩ := h'.known hy
    exact ⟨z, hz, hn'.trans hn, hh'.trans hh⟩

/-- Placeholders are released. -/
theorem Released.preserves (h : Released graph after) : Preserves graph after where
  field := h.extended.field
  function := h.extended.function
  parameter := h.extended.parameter
  declared := by
    intro id x hx hc
    rcases h.types id with he | ⟨y, hy, hi, -⟩
    · rw [he, hx]
    · cases hx.symm.trans hy
      rw [hc] at hi
      cases hi
  known := by
    intro id x hx
    rcases h.types id with he | ⟨y, hy, -, hz⟩
    · exact ⟨x, by rw [he, hx], rfl, rfl⟩
    · cases hx.symm.trans hy
      exact ⟨_, hz, rfl, rfl⟩

/-- A new file is scanned. -/
theorem Appended.preserves {latest : UnitId} {path : String} {home : Universe}
    (h : Appended latest path home graph after) : Preserves graph after where
  field := h.field
  function := h.function
  parameter := h.parameter
  declared := h.declared
  known := by
    intro id x hx
    cases hc : x.isComplete with
    | true => exact ⟨x, h.declared hx hc, rfl, rfl⟩
    | false =>
      rcases h.placeholder hx hc with hy | ⟨y, hy, hn, hh, -⟩
      · exact ⟨x, hy, rfl, rfl⟩
      · exact ⟨y, hy, hn, hh⟩

/-- A target stays one of its universe, or one of another. -/
theorem OwnIfHad.preserved {home : Universe} {earlier : Graph} {target : TypeId}
    (h : OwnIfHad home earlier graph target) (hg : Preserves graph after) :
    OwnIfHad home earlier after target := by
  obtain ⟨x, hx, hown⟩ := h
  obtain ⟨y, hy, hn, hh⟩ := hg.known hx
  exact ⟨y, hy, by rw [hn, hh]; exact hown⟩

end Graph

namespace Session

/-- The next step scans a file under a path that is new in its scope. -/
structure ScansNew (session : Session) (scope : Scope) (source : SourceText) : Prop where
  scopes : session.scopes = [scope]
  path : session.project.store.graph.unitAt? source.path scope.artifact? = none

/-- The three passes over a file in a scope of a session. -/
def passes (session : Session) (scope : Scope) (config : ScanConfig) (source : SourceText) :
    Except GraphError Declarations × ScanState :=
  OpenProject.passes config { session.project with scope } source

variable {session : Session} {scope : Scope} {config : ScanConfig} {source : SourceText}

/-- The project of a session with its only scope is sound and tidy. -/
theorem ScansNew.opened (h : session.ScansNew scope source) (hs : session.Sound)
    (ht : session.Tidy) : OpenProject.Sound { session.project with scope } ∧
      OpenProject.Tidy { session.project with scope } :=
  ⟨hs.opened h.scopes, ht.opened h.scopes⟩

/-- The scan of a new file leaves what its three passes leave. -/
theorem ScansNew.graph (h : session.ScansNew scope source) (hs : session.Sound)
    (ht : session.Tidy) (config : ScanConfig) :
    (Step.run session (.scan config source.path source.text)).project.store.graph =
      (session.passes scope config source).2.store.graph := by
  unfold Step.run inScope?
  simp only [h.scopes]
  exact OpenProject.graph_after config (h.opened hs ht).1 h.path

/-- A run that ends with the scan of a new file leaves what the three passes leave. -/
theorem ScansNew.graph_run {steps : List Step} (h : (run steps).ScansNew scope source)
    (config : ScanConfig) :
    (run (steps ++ [.scan config source.path source.text])).project.store.graph =
      ((run steps).passes scope config source).2.store.graph := by
  have hrun : run (steps ++ [.scan config source.path source.text]) =
      Step.run (run steps) (.scan config source.path source.text) := by
    simp [run, List.foldl_append]
  rw [hrun]
  exact h.graph (sound_run steps) (tidy_run steps) config

/-- Whatever is scanned, a step releases placeholders or scans a new file. -/
theorem step_cases (hs : session.Sound) (step : Step) :
    Graph.Released session.project.store.graph (step.run session).project.store.graph ∨
      ∃ scope config source, step = .scan config source.path source.text ∧
        session.ScansNew scope source := by
  cases step with
  | addArtifact name dependencies =>
    left
    change Graph.Released _ (Graph.addArtifact name dependencies session.project.store.graph).2
    rcases Graph.addArtifact_cases _ name dependencies with he | ⟨-, he⟩ <;> rw [he]
    · exact Guarantee.refl _
    · exact .of_eq rfl rfl rfl rfl rfl rfl
  | answer answers => exact .inl (Guarantee.refl _)
  | scanner files => exact .inl (Guarantee.refl _)
  | enter artifact =>
    left
    simp only [Step.run]
    split
    · unfold Session.enter
      split <;> exact Guarantee.refl _
    · exact Guarantee.refl _
  | scan config path text =>
    unfold Sound at hs
    unfold Step.run inScope?
    cases hm : session.scopes with
    | nil => exact .inl (Guarantee.refl _)
    | cons scope rest =>
      cases hu : session.project.store.graph.unitAt? path scope.artifact? with
      | none =>
        cases rest with
        | nil => exact .inr ⟨scope, config, ⟨path, text⟩, rfl, hm, hu⟩
        | cons other rest =>
          rw [hm] at hs
          exact hs.elim
      | some unit =>
        left
        obtain ⟨node, hn, -⟩ := Graph.get?_of_unitAt? hu
        have hold : OpenProject.scanSource config path text { session.project with scope } =
            (_, OpenProject.seeing { session.project with scope } path) :=
          OpenProject.scanParsed_existing _ _ hu hn
        simp only [hold]
        exact Guarantee.refl _
  | scanText path text =>
    left
    have hk : Keeps Graph.Released (do
        let file ← Graph.addTextFile path
        forEach (Text.lines text) fun line => discard (Graph.addLine file line)
        return file) := inferInstance
    exact hk.keeps session.project.store.graph
  | leave =>
    left
    unfold Step.run leave?
    cases session.scopes with
    | nil => exact Guarantee.refl _
    | cons scope rest => exact Scope.released_leave scope session.project.store

/-- Declared types and members are left as they are by every step. -/
theorem preserves_step (hs : session.Sound) (ht : session.Tidy) (step : Step) :
    Graph.Preserves session.project.store.graph (step.run session).project.store.graph := by
  rcases step_cases hs step with hr | ⟨scope, config, source, rfl, hnew⟩
  · exact hr.preserves
  · obtain ⟨hsound, htidy⟩ := hnew.opened hs ht
    have h := OpenProject.appended_scanSource hsound htidy config source.text hnew.path
    unfold Step.run inScope?
    simp only [hnew.scopes]
    exact h.preserves

/-- Declared types and members are left as they are by what follows in a run. -/
theorem preserves_run (steps later : List Step) :
    Graph.Preserves (run steps).project.store.graph (run (steps ++ later)).project.store.graph := by
  induction later using List.reverseRecOn with
  | nil =>
    rw [List.append_nil]
    exact .refl _
  | append_singleton later step ih =>
    refine ih.trans ?_
    rw [← List.append_assoc]
    have hstep := preserves_step (sound_run (steps ++ later)) (tidy_run (steps ++ later)) step
    have hrun : run (steps ++ later ++ [step]) = step.run (run (steps ++ later)) := by
      simp [run, List.foldl_append]
    rw [hrun]
    exact hstep

/-! ### References -/

/-- A step leaves a declared type of an artifact as it is, or the step scans its file. Then the type
refers to types of the artifact if the artifact has them now, and else to those of others. -/
theorem ownIfHad_step (hs : session.Sound) (ht : session.Tidy) (step : Step)
    {artifact : ArtifactId} {id : TypeId} {x : TypeNode}
    (hx : (step.run session).project.store.graph.types.get? id = some x)
    (hc : x.isComplete = true) (hh : x.home = some artifact) :
    session.project.store.graph.types.get? id = some x ∨
      (∃ config path text, step = .scan config path text) ∧
        x.state = .complete session.project.store.graph.units.nextId ∧
        (step.run session).project.store.graph.Within
          (Graph.OwnIfHad (some artifact) (step.run session).project.store.graph
            (step.run session).project.store.graph) x := by
  rcases step_cases hs step with hr | ⟨scope, config, source, rfl, hnew⟩
  · obtain ⟨y, hy, rfl | ⟨-, rfl⟩⟩ := hr.type hx
    · exact .inl hy
    · cases hc
  · obtain ⟨hsound, htidy⟩ := hnew.opened hs ht
    rw [hnew.graph hs ht config] at hx ⊢
    rcases OpenProject.complete_passes hsound htidy config source hx hc with hold | hsx
    · exact .inl hold
    · refine .inr ⟨⟨_, _, _, rfl⟩, hsx, ?_⟩
      have hhome := OpenProject.home_passes hsound htidy hx hsx
      change x.home = scope.artifact? at hhome
      rw [hh] at hhome
      have hwithin := OpenProject.ownIfHad_passes hsound htidy config source
        (by change scope.artifact?.isSome; rw [← hhome]; rfl) hx hsx
      change Graph.Within _ (Graph.OwnIfHad scope.artifact? _ _) x at hwithin
      rw [← hhome] at hwithin
      exact hwithin

/-- In every run, a declared type of an artifact has come out of the scan of its file as it is. All
that it refers to belongs to the artifact exactly if the artifact had the name after that scan,
whatever has been declared since. -/
theorem refers_ownIfHad_run (steps : List Step) {artifact : ArtifactId} {id : TypeId} {x : TypeNode}
    (hx : (run steps).project.store.graph.types.get? id = some x) (hc : x.isComplete = true)
    (hh : x.home = some artifact) :
    ∃ before config path text later, steps = before ++ .scan config path text :: later ∧
      x.state = .complete (run before).project.store.graph.units.nextId ∧
      (run (before ++ [.scan config path text])).project.store.graph.types.get? id = some x ∧
      ∀ target, (run steps).project.store.graph.Refers x target →
        Graph.OwnIfHad (some artifact)
          (run (before ++ [.scan config path text])).project.store.graph
          (run steps).project.store.graph target := by
  -- The scan after which the type is there is found from the end of the run.
  suffices h : ∃ before config path text later, steps = before ++ .scan config path text :: later ∧
      x.state = .complete (run before).project.store.graph.units.nextId ∧
      (run (before ++ [.scan config path text])).project.store.graph.types.get? id = some x ∧
      (run steps).project.store.graph.Within (Graph.OwnIfHad (some artifact)
        (run (before ++ [.scan config path text])).project.store.graph
        (run steps).project.store.graph) x by
    obtain ⟨before, config, path, text, later, he, hsx, hscanned, hwithin⟩ := h
    exact ⟨before, config, path, text, later, he, hsx, hscanned, fun _ hr => hwithin.of_refers hr⟩
  induction steps using List.reverseRecOn with
  | nil =>
    simp [run, Arena.get?] at hx
  | append_singleton steps step ih =>
    have hrun : run (steps ++ [step]) = step.run (run steps) := by simp [run, List.foldl_append]
    have hpreserves := preserves_run steps [step]
    rw [hrun] at hx
    rcases ownIfHad_step (sound_run steps) (tidy_run steps) step hx hc hh with
      hx | ⟨⟨config, path, text, rfl⟩, hsx, hwithin⟩
    · obtain ⟨before, config, path, text, later, rfl, hsx, hscanned, hwithin⟩ := ih hx
      refine ⟨before, config, path, text, later ++ [step], by simp, hsx, hscanned, ?_⟩
      exact hwithin.mono hpreserves.toKeepsMembers fun ht => ht.preserved hpreserves
    · refine ⟨steps, config, path, text, [], rfl, hsx, ?_, ?_⟩
      · rw [hrun]
        exact hx
      · rw [hrun]
        exact hwithin

/-- An artifact scans a file that uses a name of its dependency, and then one that declares the
name. -/
def declaredTooLate : List Step :=
  [.addArtifact "lib" [], .addArtifact "app" [⟨0⟩], .enter (some ⟨0⟩),
    .scan {} "lib/Shared.java" "package p; class Shared \x7b \x7d", .leave, .enter (some ⟨1⟩),
    .scan {} "User.java" "package p; class User \x7b Shared shared; \x7d",
    .scan {} "Shared.java" "package p; class Shared \x7b \x7d"]

/-- The file that uses the name has been scanned when the artifact did not have it. -/
theorem refers_ownIfHad_declaredTooLate :
    ∃ x, (run declaredTooLate).project.store.graph.types.get? ⟨1⟩ = some x ∧
      x.isComplete = true ∧ x.home = some ⟨1⟩ ∧
      ∃ before config path text later, declaredTooLate = before ++ .scan config path text :: later ∧
        x.state = .complete (run before).project.store.graph.units.nextId ∧
        (run (before ++ [.scan config path text])).project.store.graph.types.get? ⟨1⟩ = some x ∧
        ∀ target, (run declaredTooLate).project.store.graph.Refers x target →
          Graph.OwnIfHad (some ⟨1⟩)
            (run (before ++ [.scan config path text])).project.store.graph
            (run declaredTooLate).project.store.graph target := by
  have h : ((run declaredTooLate).project.store.graph.types.get? ⟨1⟩).map
      (fun x => (x.isComplete, x.home)) = some (true, some ⟨1⟩) := by decide +kernel
  obtain ⟨x, hx, he⟩ := Option.map_eq_some_iff.1 h
  simp only [Prod.mk.injEq] at he
  exact ⟨x, hx, he.1, he.2, refers_ownIfHad_run declaredTooLate hx he.1 he.2⟩

/-- In the end the artifact declares the name, and still its field is of the dependency's type. -/
theorem refers_foreign_declaredTooLate :
    ∃ user own foreign : TypeNode,
      (run declaredTooLate).project.store.graph.types.get? ⟨1⟩ = some user ∧
      user.home = some ⟨1⟩ ∧
      (run declaredTooLate).project.store.graph.types.get? ⟨2⟩ = some own ∧
      own.home = some ⟨1⟩ ∧ own.isComplete = true ∧
      (run declaredTooLate).project.store.graph.types.get? ⟨0⟩ = some foreign ∧
      foreign.home = some ⟨0⟩ ∧ foreign.name = own.name ∧
      (run declaredTooLate).project.store.graph.Refers user ⟨0⟩ := by
  have h : ((run declaredTooLate).project.store.graph.types.get? ⟨1⟩).map
        (fun user => (user.home, user.fields)) = some (some ⟨1⟩, [⟨0⟩]) ∧
      ((run declaredTooLate).project.store.graph.types.get? ⟨2⟩).map
        (fun own => (own.home, own.isComplete, own.name.text)) =
          some (some ⟨1⟩, true, "p.Shared") ∧
      ((run declaredTooLate).project.store.graph.types.get? ⟨0⟩).map
        (fun foreign => (foreign.home, foreign.name.text)) = some (some ⟨0⟩, "p.Shared") ∧
      ((run declaredTooLate).project.store.graph.fields.get? ⟨0⟩).map
        (·.typeUse.declared?) = some (some ⟨0⟩) := by decide +kernel
  obtain ⟨huser, hown, hforeign, hfield⟩ := h
  obtain ⟨user, hu, heu⟩ := Option.map_eq_some_iff.1 huser
  obtain ⟨own, ho, heo⟩ := Option.map_eq_some_iff.1 hown
  obtain ⟨foreign, hf, hef⟩ := Option.map_eq_some_iff.1 hforeign
  obtain ⟨field, hfd, hd⟩ := Option.map_eq_some_iff.1 hfield
  simp only [Prod.mk.injEq] at heu heo hef
  refine ⟨user, own, foreign, hu, heu.1, ho, heo.1, heo.2.1, hf, hef.1, ?_, ?_⟩
  · exact QualifiedName.text_inj.1 (hef.2.trans heo.2.2.symm)
  · exact .field (by rw [heu.2]; exact List.mem_singleton_self _) hfd hd

end Session

end JavaGraph
