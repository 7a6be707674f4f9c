import JavaGraph.Proofs.Session.Parallel
/-!
# Artifacts do not disturb each other

What is done to other artifacts spares an artifact and what its dependencies declare. What is done to
the artifact itself is done in the same way whether others are there or not. So in the end it is as
if they had not been there.
-/

namespace JavaGraph

open List (Forall₂)
open JavaGraph.Action
open JavaGraph.Graph (SameType SameUnit Extends Elsewhere CorrespondsIn SameDeclared Released Lends)

/-! ### What is spared -/

namespace Graph

/-- What belongs to an artifact is as it was, and so is what its dependencies declare. -/
structure Spared (artifact : ArtifactId) (dependencies : List ArtifactId) (before after : Graph) :
    Prop where
  extended : Extends before after
  declared : ∀ {id x}, before.types.get? id = some x → x.isComplete = true →
    after.types.get? id = some x
  lent : ∀ owner ∈ dependencies, SameDeclared owner before after
  node : after.artifacts.get? artifact = before.artifacts.get? artifact
  corresponds : ∀ {other}, CorrespondsIn (some artifact) before other →
    CorrespondsIn (some artifact) after other

variable {graph after : Graph} {artifact other : ArtifactId} {deps : List ArtifactId}

/-- Nothing has changed. -/
theorem Spared.refl (artifact : ArtifactId) (deps : List ArtifactId) (graph : Graph) :
    Spared artifact deps graph graph :=
  ⟨.refl graph, fun hx _ => hx, fun _ _ _ _ _ _ => Iff.rfl, rfl, id⟩

/-- Placeholders are released, and artifacts come in. -/
theorem Released.spared (h : Released graph after)
    (hn : after.artifacts.get? artifact = graph.artifacts.get? artifact) :
    Spared artifact deps graph after where
  extended := h.extended
  declared hx hc := (h.complete_iff hc).2 hx
  lent _ _ _ _ hc _ := (h.complete_iff hc).symm
  node := hn
  corresponds hco := hco.released h (Guarantee.refl _) (fun id hid => by cases hid; exact hn)
    fun _ _ => rfl

/-- A unit of another artifact comes in. -/
theorem spared_of_elsewhere (h : ∀ home, home ≠ some other → Elsewhere home (some other) graph after)
    (hne : artifact ≠ other) (hd : other ∉ deps) (hc : graph.Consistent) (hc' : after.Consistent)
    (hb : Twins.Blank graph) : Spared artifact deps graph after := by
  have hown := h (some artifact) fun h => hne (Option.some.inj h)
  refine ⟨hown.since.extended, fun hx hi => hown.since.foreign hx hi (Twins.declares_nothing hc hx),
    fun owner ho id x hi ha => ?_, hown.artifact artifact rfl, fun hco => hown.corresponds hc hb hco⟩
  have howner := h (some owner) fun h => hd (Option.some.inj h ▸ ho)
  constructor
  · intro hx
    exact (howner.type_iff hc ((hc.artifact_eq_home hx hi).symm.trans ha)).2 hx
  · intro hx
    exact (howner.type_iff hc ((hc'.artifact_eq_home hx hi).symm.trans ha)).1 hx

end Graph

namespace Parallel

variable {state full solo full' : Parallel} {artifact other : ArtifactId} {deps : List ArtifactId}

/-- What is done to others spares an artifact, its scope and the reports on its files. -/
structure Spares (artifact : ArtifactId) (dependencies : List ArtifactId) (before after : Parallel) :
    Prop where
  graph : Graph.Spared artifact dependencies before.graph after.graph
  scope : after.scopes artifact = before.scopes artifact
  reports : after.reportsOn artifact = before.reportsOn artifact
  answers : after.project.store.answers = before.project.store.answers
  files : ∀ {file path}, before.project.files.path? file = some path →
    after.project.files.path? file = some path

/-- Nothing has been done. -/
private theorem Spares.refl (artifact : ArtifactId) (deps : List ArtifactId) (state : Parallel) :
    Spares artifact deps state state :=
  ⟨.refl .., rfl, rfl, rfl, id⟩

/-- The scope of an artifact is the same if that of another one is not. -/
private theorem scope_withScope (hne : artifact ≠ other) (scope : Option Scope) :
    (state.withScope other scope).scopes artifact = state.scopes artifact :=
  Function.update_of_ne hne ..

/-- The scope of an artifact is the one that it has been given. -/
private theorem scope_withScope_self (scope : Option Scope) :
    (state.withScope artifact scope).scopes artifact = scope :=
  Function.update_self ..

/-- A scan in the scope of another artifact spares this one. -/
private theorem Sound.spares_scan (h : state.Sound) (hne : artifact ≠ other) (hd : other ∉ deps)
    (config : ScanConfig) (source : SourceText) :
    Spares artifact deps state (state.scan other config source) := by
  cases hs : state.scopes other with
  | none =>
    rw [scan_of_closed config source hs]
    exact .refl ..
  | some scope =>
    obtain ⟨report, after, hrun, hp⟩ := OpenProject.proceeds_scanOne
      { state.project with scope } (h.scopes hs) h.tidy config source
    obtain ⟨extra, hsound⟩ := hp.scope.sound
    rw [scan_of_open hs hrun]
    refine ⟨?_, scope_withScope hne _, ?_, hp.answers, hp.files⟩
    · rcases hp.graph with he | he
      · change Graph.Spared artifact deps state.graph after.store.graph
        rw [he]
        exact .refl ..
      · exact Graph.spared_of_elsewhere he hne hd h.consistent hsound.consistent h.tidy.blank
    · unfold reportsOn
      simp only [List.filter_append, List.filter_cons, List.filter_nil]
      rw [if_neg (by simpa using Ne.symm hne), List.append_nil]

/-- The scope of another artifact that is left spares this one. -/
private theorem Sound.spares_leave (h : state.Sound) (hne : artifact ≠ other) :
    Spares artifact deps state (state.leave other) := by
  cases hs : state.scopes other with
  | none =>
    rw [leave_of_closed hs]
    exact .refl ..
  | some scope =>
    obtain ⟨after, hrun, hledger, hreleased⟩ := (h.scopes hs).leave state.project.store.answers
    rw [leave_of_open hs hrun]
    exact ⟨hreleased.spared (by rw [hledger.artifacts]), scope_withScope hne _, rfl, rfl, id⟩

/-- What is not done to an artifact, nor to its dependencies, spares it. -/
theorem Sound.spares (h : state.Sound) {node : Artifact}
    (hn : state.graph.artifacts.get? artifact = some node) (event : Event)
    (he : event.concerns artifact = false) (hd : ∀ owner ∈ deps, event.concerns owner = false) :
    Spares artifact deps state (event.run state) := by
  cases event with
  | addArtifact name dependencies =>
    exact ⟨(released_addArtifact name dependencies state.graph).spared
      ((artifact_addArtifact name dependencies hn).trans hn.symm), rfl, rfl, rfl, id⟩
  | enter other =>
    have hne : artifact ≠ other := fun h => of_decide_eq_false he h.symm
    change Spares artifact deps state (state.enter other)
    rcases enter_cases other state with he | ⟨scope, -, -, he⟩ <;> rw [he]
    · exact .refl ..
    · exact ⟨.refl .., scope_withScope hne _, rfl, rfl, id⟩
  | scan other config source =>
    exact h.spares_scan (fun h => of_decide_eq_false he h.symm)
      (fun ho => of_decide_eq_false (hd other ho) rfl) config source
  | leave other => exact h.spares_leave fun h => of_decide_eq_false he h.symm

/-! ### An artifact with and without others -/

/-- Two results of a scan are reports that are the same up to identifiers. -/
def SameReport (full solo : Parallel) (result result' : Except GraphError UnitReport) : Prop :=
  ∃ report report', result = .ok report ∧ result' = .ok report' ∧
    UnitReport.Alike (FileSet.SameFile full.project.files solo.project.files)
      (SameUnit full.graph solo.graph) (SameType full.graph solo.graph) report report'

/-- Reports stay the same. -/
private theorem SameReport.mono {solo' : Parallel} {result result' : Except GraphError UnitReport}
    (h : SameReport full solo result result') (hg : Extends full.graph full'.graph)
    (hg' : Extends solo.graph solo'.graph)
    (hf : ∀ {file path}, full.project.files.path? file = some path →
      full'.project.files.path? file = some path)
    (hf' : ∀ {file path}, solo.project.files.path? file = some path →
      solo'.project.files.path? file = some path) : SameReport full' solo' result result' := by
  obtain ⟨report, report', hr, hr', halike⟩ := h
  refine ⟨report, report', hr, hr', halike.imp ?_ (fun hu => hu.mono hg hg') fun ht =>
    ht.mono hg hg'⟩
  rintro a b ⟨path, ha, hb⟩
  exact ⟨path, hf ha, hf' hb⟩

/-- An artifact has the same with others and without them, and so have the dependencies that it looks
into. -/
structure Isolated (artifact : ArtifactId) (deps : List ArtifactId) (full solo : Parallel) :
    Prop where
  sound : full.Sound
  sound' : solo.Sound
  known : ∃ node, full.graph.artifacts.get? artifact = some node
  dependencies : full.graph.dependenciesOf (some artifact) = deps
  corresponds : CorrespondsIn (some artifact) full.graph solo.graph
  lent : ∀ owner ∈ deps, some owner ≠ some artifact → SameDeclared owner full.graph solo.graph
  answers : full.project.store.answers = solo.project.store.answers
  scopes : Option.Rel (Scope.Peers deps (Lends (some artifact) full.graph solo.graph))
    (full.scopes artifact) (solo.scopes artifact)
  reports : Forall₂ (SameReport full solo) (full.reportsOn artifact) (solo.reportsOn artifact)

/-- What spares the artifact leaves it isolated. -/
private theorem Isolated.spared (h : Isolated artifact deps full solo)
    (hs : Spares artifact deps full full') (hsound : full'.Sound) :
    Isolated artifact deps full' solo where
  sound := hsound
  sound' := h.sound'
  known := by
    rw [hs.graph.node]
    exact h.known
  dependencies := by
    refine Eq.trans ?_ h.dependencies
    unfold Graph.dependenciesOf
    simp only [hs.graph.node]
  corresponds := hs.graph.corresponds h.corresponds
  lent owner ho hne id x hc ha :=
    (hs.graph.lent owner ho id x hc ha).symm.trans (h.lent owner ho hne id x hc ha)
  answers := hs.answers.trans h.answers
  scopes := by
    rw [hs.scope]
    refine rel_imp (fun hp => hp.imp ?_) h.scopes
    rintro id ⟨x, hx, hx', hc, hh⟩
    exact ⟨x, hs.graph.declared hx hc, hx', hc, hh⟩
  reports := by
    rw [hs.reports]
    exact h.reports.imp fun _ _ hr => hr.mono hs.graph.extended (.refl _) hs.files id

/-- An artifact that is known can be entered, and its scope has the dependencies of the artifact. -/
private theorem Sound.enter_ok (h : state.Sound) {node : Artifact}
    (hn : state.graph.artifacts.get? artifact = some node) :
    ∃ known, Scope.enter state.graph (some artifact) =
      .ok (.ofArtifact { artifact, dependencies := node.dependencies, known }) := by
  obtain ⟨known, hrun, -⟩ := ArtifactScope.enter_ok h.consistent h.covered hn
  refine ⟨known, ?_⟩
  unfold Scope.enter
  simp only [hrun]
  rfl

/-- The scope of the artifact is entered in both cases, or in none. -/
private theorem Isolated.enter (h : Isolated artifact deps full solo) :
    Isolated artifact deps (full.enter artifact) (solo.enter artifact) := by
  have hscopes := h.scopes
  generalize hs : full.scopes artifact = scope at hscopes
  generalize hs' : solo.scopes artifact = scope' at hscopes
  cases hscopes with
  | some hp =>
    rw [enter_of_open hs, enter_of_open hs']
    exact h
  | none =>
    obtain ⟨node, hn⟩ := h.known
    have hmatch := h.corresponds.artifact artifact rfl
    rw [hn] at hmatch
    generalize hn' : solo.graph.artifacts.get? artifact = node' at hmatch
    cases hmatch with
    | some hm =>
      obtain ⟨known, he⟩ := h.sound.enter_ok hn
      obtain ⟨known', he'⟩ := h.sound'.enter_ok hn'
      have hd : node.dependencies = deps := by
        rw [← h.dependencies]
        simp [Graph.dependenciesOf, hn]
      have hsound := h.sound.step (.enter artifact)
      have hsound' := h.sound'.step (.enter artifact)
      change (full.enter artifact).Sound at hsound
      change (solo.enter artifact).Sound at hsound'
      rw [enter_of_closed hs he] at hsound ⊢
      rw [enter_of_closed hs' he'] at hsound' ⊢
      refine { h with sound := hsound, sound' := hsound', scopes := ?_ }
      rw [scope_withScope_self, scope_withScope_self]
      exact .some ⟨_, _, rfl, rfl, hd, hm.dependencies.symm.trans hd, fun name => ⟨rfl, fun _ h => by cases h⟩⟩

/-- A file of the artifact is scanned in both cases, or in none. -/
private theorem Isolated.scan (h : Isolated artifact deps full solo) (config : ScanConfig)
    (source : SourceText) :
    Isolated artifact deps (full.scan artifact config source)
      (solo.scan artifact config source) := by
  have hscopes := h.scopes
  generalize hs : full.scopes artifact = scope at hscopes
  generalize hs' : solo.scopes artifact = scope' at hscopes
  cases hscopes with
  | none =>
    rw [scan_of_closed config source hs, scan_of_closed config source hs']
    exact h
  | @some scope scope' hp =>
    have ho := h.sound.scopes hs
    have ho' := h.sound'.scopes hs'
    have ha : scope.artifact? = some artifact := ho.artifact
    have halong : OpenProject.Alongside deps { full.project with scope }
        { solo.project with scope := scope' } := by
      refine ⟨ho'.artifact.trans ha.symm, ?_, ?_, ?_, h.answers⟩
      all_goals
        simp only [ha]
      · exact h.corresponds
      · exact hp
      · exact h.lent
    obtain ⟨report, report', after, after', hrun, hrun', halong, halike⟩ :=
      halong.together ho h.sound.tidy ho' h.sound'.tidy config source
    obtain ⟨_, _, hr, hproceeds⟩ := OpenProject.proceeds_scanOne
      { full.project with scope } ho h.sound.tidy config source
    obtain ⟨_, _, hr', hproceeds'⟩ := OpenProject.proceeds_scanOne
      { solo.project with scope := scope' } ho' h.sound'.tidy config source
    cases hr.symm.trans hrun
    cases hr'.symm.trans hrun'
    have hsound := h.sound.step (.scan artifact config source)
    have hsound' := h.sound'.step (.scan artifact config source)
    change (full.scan artifact config source).Sound at hsound
    change (solo.scan artifact config source).Sound at hsound'
    rw [scan_of_open hs hrun] at hsound ⊢
    rw [scan_of_open hs' hrun'] at hsound' ⊢
    have hartifact : after.scope.artifact? = some artifact := hproceeds.scope.artifact
    obtain ⟨-, hcorresponds, hpeers, hlent, hanswers⟩ := halong
    rw [hartifact] at hcorresponds hpeers hlent
    refine ⟨hsound, hsound', ?_, ?_, hcorresponds, hlent, hanswers, ?_, ?_⟩
    · obtain ⟨extra, hsound⟩ := hproceeds.scope.sound
      exact hsound.artifact_known ((Scope.artifact?_lending ..).trans hartifact)
    · exact (hproceeds.dependencies _).trans h.dependencies
    · change Option.Rel _ ((full.withScope artifact _).scopes artifact)
        ((solo.withScope artifact _).scopes artifact)
      rw [scope_withScope_self, scope_withScope_self]
      exact .some hpeers
    · unfold reportsOn
      simp only [List.filter_append, List.map_append, List.filter_cons, List.filter_nil,
        decide_true, if_true, List.map_cons, List.map_nil]
      refine List.rel_append (h.reports.imp fun _ _ hr => hr.mono hproceeds.extended
        hproceeds'.extended hproceeds.files hproceeds'.files) (.cons ?_ .nil)
      exact ⟨report, report', rfl, rfl, halike⟩

/-- The scope of the artifact is left in both cases, or in none. -/
private theorem Isolated.leave (h : Isolated artifact deps full solo) :
    Isolated artifact deps (full.leave artifact) (solo.leave artifact) := by
  have hscopes := h.scopes
  generalize hs : full.scopes artifact = scope at hscopes
  generalize hs' : solo.scopes artifact = scope' at hscopes
  cases hscopes with
  | none =>
    rw [leave_of_closed hs, leave_of_closed hs']
    exact h
  | some hp =>
    obtain ⟨after, hrun, hledger, hreleased⟩ :=
      (h.sound.scopes hs).leave full.project.store.answers
    obtain ⟨after', hrun', hledger', hreleased'⟩ :=
      (h.sound'.scopes hs').leave solo.project.store.answers
    have hsound := h.sound.step (.leave artifact)
    have hsound' := h.sound'.step (.leave artifact)
    change (full.leave artifact).Sound at hsound
    change (solo.leave artifact).Sound at hsound'
    rw [leave_of_open hs hrun] at hsound ⊢
    rw [leave_of_open hs' hrun'] at hsound' ⊢
    have hnode : after.artifacts = full.graph.artifacts := hledger.artifacts
    have hnode' : after'.artifacts = solo.graph.artifacts := hledger'.artifacts
    refine ⟨hsound, hsound', ?_, ?_, ?_, fun owner ho hne id x hc ha => ?_, h.answers, ?_, ?_⟩
    · change ∃ node, after.artifacts.get? artifact = some node
      rw [hnode]
      exact h.known
    · change after.dependenciesOf (some artifact) = deps
      rw [← h.dependencies]
      unfold Graph.dependenciesOf
      rw [hnode]
    · exact h.corresponds.released hreleased hreleased' (fun _ _ => by rw [hnode]) fun _ _ => by
        rw [hnode']
    · exact (hreleased.complete_iff hc).trans
        ((h.lent owner ho hne id x hc ha).trans (hreleased'.complete_iff hc).symm)
    · change Option.Rel _ ((full.withScope artifact _).scopes artifact)
        ((solo.withScope artifact _).scopes artifact)
      rw [scope_withScope_self, scope_withScope_self]
      exact .none
    · exact h.reports.imp fun _ _ hr => hr.mono hreleased.extended hreleased'.extended id id

/-- What is done to the artifact itself leaves it isolated. -/
private theorem Isolated.own (h : Isolated artifact deps full solo) (event : Event)
    (he : event.concerns artifact = true) :
    Isolated artifact deps (event.run full) (event.run solo) := by
  cases event with
  | addArtifact name dependencies => cases he
  | enter other =>
    obtain rfl : other = artifact := of_decide_eq_true he
    exact h.enter
  | scan other config source =>
    obtain rfl : other = artifact := of_decide_eq_true he
    exact h.scan config source
  | leave other =>
    obtain rfl : other = artifact := of_decide_eq_true he
    exact h.leave

/-- An artifact stays isolated whatever is done, if nothing is done to its dependencies. -/
private theorem Isolated.run (events : List Event) : ∀ {full solo : Parallel},
    Isolated artifact deps full solo →
    (∀ owner ∈ deps, ∀ event ∈ events, event.concerns owner = false) →
    Isolated artifact deps (full.run events)
      (solo.run (events.filter (·.concerns artifact))) := by
  induction events with
  | nil => exact fun h _ => h
  | cons event rest ih =>
    intro full solo h hd
    have hrest : ∀ owner ∈ deps, ∀ event ∈ rest, event.concerns owner = false :=
      fun owner ho other hm => hd owner ho other (List.mem_cons_of_mem _ hm)
    cases he : event.concerns artifact with
    | true =>
      rw [List.filter_cons_of_pos he]
      exact ih (h.own event he) hrest
    | false =>
      rw [List.filter_cons_of_neg (by simp [he])]
      obtain ⟨node, hn⟩ := h.known
      refine ih (h.spared (h.sound.spares hn event he fun owner ho => ?_) (h.sound.step event)) hrest
      exact hd owner ho event (List.mem_cons_self ..)

/-- No scope is open yet. -/
private theorem isolated_nil {session : Session} (hs : session.Sound) (ht : session.Tidy)
    (hi : session.project.store.graph.Intact) (hn : session.scopes = []) {node : Artifact}
    (ha : session.project.store.graph.artifacts.get? artifact = some node) :
    Isolated artifact node.dependencies { project := session.project }
      { project := session.project } := by
  unfold Session.Sound at hs
  rw [hn] at hs
  obtain ⟨hc, hv, -⟩ := hs
  have hsound : Sound { project := session.project } := ⟨hc, hv, ht.graph, nofun⟩
  refine ⟨hsound, hsound, ⟨node, ha⟩, ?_, .refl hc ht.graph hi _, fun _ _ _ _ _ _ _ => Iff.rfl, rfl,
    .none, .nil⟩
  change Graph.dependenciesOf session.project.store.graph (some artifact) = _
  simp [Graph.dependenciesOf, ha]

/-- After every run, artifacts are made, entered, scanned and left in any order. If nothing of that
is done to the dependencies of an artifact, then what belongs to it in the end is the same, up to
identifiers, as if only what concerns it had been done, and so are the reports on its files. -/
theorem isolated_run (steps : List Session.Step) (events : List Event) {artifact : ArtifactId}
    {node : Artifact} (hs : (Session.run steps).scopes = [])
    (ha : (Session.run steps).project.store.graph.artifacts.get? artifact = some node)
    (hd : ∀ owner ∈ node.dependencies, ∀ event ∈ events, event.concerns owner = false) :
    let full := run { project := (Session.run steps).project } events
    let solo := run { project := (Session.run steps).project } (events.filter (·.concerns artifact))
    CorrespondsIn (some artifact) full.graph solo.graph ∧
      Forall₂ (SameReport full solo) (full.reportsOn artifact) (solo.reportsOn artifact) := by
  have h := (isolated_nil (Session.sound_run steps) (Session.tidy_run steps)
    (Session.intact_graph steps) hs ha).run events hd
  exact ⟨h.corresponds, h.reports⟩

/-- An artifact, and one that depends on it. -/
def baseAndApp : List Session.Step :=
  [.addArtifact "base" [], .addArtifact "app" [⟨0⟩], .enter (some ⟨0⟩),
    .scan {} "Base.java" "class Base { }", .leave]

/-- Another artifact depends on the first one, and declares the same name as the second one. -/
def sameNames : List Event :=
  [.enter ⟨1⟩, .addArtifact "other" [⟨0⟩], .enter ⟨2⟩,
    .scan ⟨1⟩ {} ⟨"a/A.java", "class A extends Base { Same s; }"⟩,
    .scan ⟨2⟩ {} ⟨"b/Same.java", "class Same extends Base { int other; }"⟩,
    .scan ⟨1⟩ {} ⟨"a/Same.java", "class Same { int own; }"⟩, .leave ⟨1⟩, .leave ⟨2⟩]

/-- The second artifact has the same with the third one and without it. -/
theorem isolated_sameNames :
    (Session.run baseAndApp).scopes = [] ∧
      (Session.run baseAndApp).project.store.graph.artifacts.get? ⟨1⟩ =
        some { name := "app", dependencies := [⟨0⟩] } ∧
      CorrespondsIn (some ⟨1⟩) (run { project := (Session.run baseAndApp).project } sameNames).graph
        (run { project := (Session.run baseAndApp).project }
          (sameNames.filter (·.concerns ⟨1⟩))).graph ∧
      Forall₂
        (SameReport (run { project := (Session.run baseAndApp).project } sameNames)
          (run { project := (Session.run baseAndApp).project }
            (sameNames.filter (·.concerns ⟨1⟩))))
        ((run { project := (Session.run baseAndApp).project } sameNames).reportsOn ⟨1⟩)
        ((run { project := (Session.run baseAndApp).project }
          (sameNames.filter (·.concerns ⟨1⟩))).reportsOn ⟨1⟩) := by
  have hs : (Session.run baseAndApp).scopes = [] := by decide +kernel
  have ha : (Session.run baseAndApp).project.store.graph.artifacts.get? ⟨1⟩ =
      some { name := "app", dependencies := [⟨0⟩] } := by decide +kernel
  have hd : ∀ owner ∈ [(⟨0⟩ : ArtifactId)], ∀ event ∈ sameNames,
      event.concerns owner = false := by decide
  exact ⟨hs, ha, isolated_run baseAndApp sameNames hs ha hd⟩

end Parallel

end JavaGraph
