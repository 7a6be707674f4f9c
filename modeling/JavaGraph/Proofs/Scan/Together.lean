import JavaGraph.Proofs.Scan.Alongside
import JavaGraph.Proofs.Scan.Lending
import JavaGraph.Proofs.Session.Lifecycle
/-!
# Scopes that are open together

The scopes of several artifacts may be open over one graph. Each of them knows the types of its own
universe; there may be placeholders that others hold. A file that is scanned in one of them is
scanned as if the scope answered for those as well, and leaves the other scopes as good as they
were.
-/

namespace JavaGraph

open List (Forall₂)
open JavaGraph.Action
open JavaGraph.Graph (SameType SameUnit Since Extends Elsewhere Widens)

/-! ### Open scopes -/

/-- What is called so is a known type of that name. -/
theorem Graph.label_eq_some_iff {graph : Graph} {id : TypeId} {name : QualifiedName}
    {home : Universe} : graph.label id = some (name, home) ↔
      ∃ x, graph.types.get? id = some x ∧ x.name = name ∧ x.home = home := by
  unfold label
  rw [Option.map_eq_some_iff]
  simp only [Prod.mk.injEq]

/-- Borrowed types are as well known if the scope answers for others. -/
theorem Twins.borrowedKnown_lending_iff {graph : Graph} {scope : Scope} (extra : List TypeId) :
    BorrowedKnown graph (scope.lending extra) ↔ BorrowedKnown graph scope := by
  cases scope with
  | global => exact Iff.rfl
  | ofArtifact own =>
    constructor
    · intro h other name id hs hb
      cases hs
      exact h _ name id rfl hb
    · intro h other name id hs hb
      cases hs
      exact h own name id rfl hb

/-- Two scopes look into the same dependencies if they do so when they answer for others. -/
theorem Scope.peers_lending_iff {deps : List ArtifactId} {lent : TypeId → Prop}
    {scope scope' : Scope} (extra extra' : List TypeId) :
    Peers deps lent (scope.lending extra) (scope'.lending extra') ↔
      Peers deps lent scope scope' := by
  constructor
  · rintro ⟨own, own', hs, hs', hd, hd', hb⟩
    cases scope <;> cases hs
    cases scope' <;> cases hs'
    exact ⟨_, _, rfl, rfl, hd, hd', hb⟩
  · rintro ⟨own, own', rfl, rfl, hd, hd', hb⟩
    exact ⟨_, _, rfl, rfl, hd, hd', hb⟩

namespace Scope

/-- The scope of an artifact is open over a graph, maybe with others. It is sound if it answers for
placeholders of others, and it has borrowed only what the dependencies declare. -/
structure OpenIn (graph : Graph) (artifact : ArtifactId) (scope : Scope) : Prop where
  artifact : scope.artifact? = some artifact
  sound : ∃ extra, Sound graph (scope.lending extra)
  borrowed : Twins.BorrowedKnown graph scope
  honest : Honest graph scope

variable {graph after : Graph} {artifact : ArtifactId} {scope : Scope}

/-- A scope knows its universe, and the placeholders that it has made. -/
theorem OpenIn.own (h : OpenIn graph artifact scope) : ∃ own, scope = .ofArtifact own ∧
    own.artifact = artifact ∧
    (∀ {name id}, own.known.find? name = some id ↔ graph.label id = some (name, some artifact)) ∧
    ∀ id ∈ own.created, ∃ x, graph.types.get? id = some x := by
  have ha := h.artifact
  cases scope with
  | global => cases ha
  | ofArtifact own =>
    cases ha
    obtain ⟨extra, -, -, hf⟩ := h.sound
    change (own.lending extra).Fits graph at hf
    refine ⟨own, rfl, rfl, fun {name id} => ?_, fun id hid => ?_⟩
    · exact Iff.trans hf.known_iff Graph.label_eq_some_iff.symm
    · exact hf.created_known (List.mem_append_right _ hid)

/-- A scope that knows its universe is sound if it answers for all types that there are. -/
private theorem sound_lending {own : ArtifactScope} (hc : graph.Consistent) (hv : graph.Covered)
    (ha : ∃ node, graph.artifacts.get? own.artifact = some node)
    (hk : ∀ {name id}, own.known.find? name = some id ↔
      graph.label id = some (name, some own.artifact))
    (hcreated : ∀ id ∈ own.created, ∃ x, graph.types.get? id = some x) :
    ∃ extra, Sound graph ((Scope.ofArtifact own).lending extra) := by
  have hall : ∀ {id x}, graph.types.get? id = some x →
      id ∈ graph.types.idsWhere fun _ => true := fun hx => Arena.mem_idsWhere.2 ⟨_, hx, rfl⟩
  refine ⟨graph.types.idsWhere fun _ => true, hc, hv, ha, hk.trans Graph.label_eq_some_iff, ?_, ?_⟩
  · exact fun hx _ => List.mem_append_left _ (hall hx)
  · intro id hid
    rcases List.mem_append.1 hid with hid | hid
    · obtain ⟨x, hx, -⟩ := Arena.mem_idsWhere.1 hid
      exact ⟨x, hx⟩
    · exact hcreated id hid

/-- A scope stays open over a graph in which its universe has the same types. -/
theorem OpenIn.of_labels (h : OpenIn graph artifact scope) (hc : after.Consistent)
    (hv : after.Covered) (ha : ∃ node, after.artifacts.get? artifact = some node)
    (hx : Extends graph after) (hw : Widens graph after)
    (hl : ∀ {id name}, after.label id = some (name, some artifact) →
      graph.label id = some (name, some artifact)) : OpenIn after artifact scope where
  artifact := h.artifact
  sound := by
    obtain ⟨own, rfl, rfl, hk, hcreated⟩ := h.own
    refine sound_lending hc hv ha (fun {name id} => ⟨fun hf => hx.label (hk.1 hf), fun hf =>
      hk.2 (hl hf)⟩) fun id hid => ?_
    obtain ⟨x, hx'⟩ := hcreated id hid
    obtain ⟨y, hy, -⟩ := Graph.get?_of_label (hx.label (Graph.label_of_get? hx'))
    exact ⟨y, hy⟩
  borrowed := h.borrowed.of_known fun hx' => by
    obtain ⟨y, hy, he⟩ := Graph.get?_of_label (hx.label (Graph.label_of_get? hx'))
    exact ⟨y, hy, congrArg Prod.fst he⟩
  honest := h.honest.mono hw

/-- A scope that is entered is open, whatever else is. -/
theorem openIn_enter (hc : graph.Consistent) (hv : graph.Covered)
    (he : Scope.enter graph (some artifact) = .ok scope) : OpenIn graph artifact scope := by
  have hh := honest_enter hc hv he
  unfold Scope.enter at he
  cases hn : graph.artifacts.get? artifact with
  | none => simp [ArtifactScope.enter, Arena.get, hn, bind, Except.bind] at he
  | some node =>
    obtain ⟨known, hrun, hknown⟩ := ArtifactScope.enter_ok hc hv hn
    simp only [hrun] at he
    cases he
    refine ⟨rfl, sound_lending hc hv ⟨node, hn⟩ (hknown.trans Graph.label_eq_some_iff.symm)
      (fun _ h => by cases h), ?_, hh⟩
    · intro own name id hs hb
      cases hs
      cases hb

/-- A scope stays open while others let go of placeholders, and while artifacts come in. -/
theorem OpenIn.released (h : OpenIn graph artifact scope) (hr : Graph.Released graph after)
    (hc : after.Consistent) (hv : after.Covered)
    (ha : ∃ node, after.artifacts.get? artifact = some node)
    (hd : ∀ owner, graph.dependenciesOf owner ⊆ after.dependenciesOf owner) :
    OpenIn after artifact scope := by
  refine h.of_labels hc hv ha hr.extended ⟨fun hx => ?_, fun hx hi => ?_, hd⟩ fun {id name} hl => ?_
  · obtain ⟨y, hy, he⟩ := Graph.get?_of_label (hr.extended.label (Graph.label_of_get? hx))
    exact ⟨y, hy, congrArg Prod.snd he⟩
  · exact ⟨_, (hr.complete_iff hi).2 hx, hi, rfl⟩
  · rw [← hr.label]
    exact hl

/-- A scope stays open while a unit of another universe comes in. -/
theorem OpenIn.elsewhere (h : OpenIn graph artifact scope) {other : Universe}
    (he : Elsewhere (some artifact) other graph after) (hc : graph.Consistent)
    (hc' : after.Consistent) (hv' : after.Covered) : OpenIn after artifact scope := by
  refine h.of_labels hc' hv' ?_ he.since.extended (he.since.widens (Twins.declares_nothing hc))
    fun {id name} hl => ?_
  · obtain ⟨extra, hs⟩ := h.sound
    rw [he.artifact artifact rfl]
    exact hs.artifact_known ((artifact?_lending ..).trans h.artifact)
  · obtain ⟨x, hx, hn, hh⟩ := Graph.label_eq_some_iff.1 hl
    exact Graph.label_eq_some_iff.2 ⟨x, (he.type_iff hc hh).1 hx, hn, hh⟩

/-- An open scope can be left. It only lets go of its placeholders. -/
theorem OpenIn.leave (h : OpenIn graph artifact scope) (answers : Bool) :
    ∃ after, scope.leave ⟨graph, answers⟩ = (.ok (), ⟨after, answers⟩) ∧
      Graph.SameLedger graph after ∧ Graph.Released graph after := by
  have hr := released_leave scope ⟨graph, answers⟩
  obtain ⟨own, rfl, -, -, hcreated⟩ := h.own
  obtain ⟨after, hrun, hledger, -⟩ := ArtifactScope.leave_run answers hcreated
  change (Scope.ofArtifact own).leave ⟨graph, answers⟩ = _ at hrun
  rw [hrun] at hr
  exact ⟨after, hrun, hledger, hr⟩

end Scope

/-! ### A file in an open scope -/

namespace OpenProject

/-- The project whose scope answers for placeholders of others. -/
def lending (extra : List TypeId) (opened : OpenProject) : OpenProject :=
  { opened with scope := opened.scope.lending extra }

variable {opened opened' : OpenProject} {extra : List TypeId} {artifact : ArtifactId}

/-- The scan of a new unit begins alike. -/
private theorem initial_lending (opened : OpenProject) (extra : List TypeId) (file : FileId)
    (path : String) (parsed : ParsedSource) :
    (opened.lending extra).initial file path parsed =
      (opened.initial file path parsed).lending extra := by
  unfold initial lending ScanState.lending
  simp only [Scope.artifact?_lending]

/-- The three passes over a new file do the same if the scope answers for others, and the scope goes
on to borrow only from its dependencies. -/
private theorem passes_lending (hs : (opened.lending extra).Sound)
    (hh : Scope.Honest opened.store.graph opened.scope) (config : ScanConfig)
    (source : SourceText) :
    (passes config (opened.lending extra) source).2 =
        (passes config opened source).2.lending extra ∧
      (∀ declared, (passes config opened source).1 = .ok declared ↔
        (passes config (opened.lending extra) source).1 = .ok declared) ∧
      Scope.Honest (passes config opened source).2.store.graph
        (passes config opened source).2.scope := by
  have hseen : ((opened.lending extra).seeing source.path).Sound := hs
  have hinitial := initial_lending (opened.seeing source.path) extra (opened.fileOf source)
    source.path (parsed config source)
  have hlent : ((opened.seeing source.path).initial (opened.fileOf source) source.path
      (parsed config source)).Lent extra opened.store.graph.units.nextId := by
    refine ⟨?_, honest_initial (opened.seeing source.path) hs.consistent hh _ _ _⟩
    rw [← hinitial]
    exact initial_sound _ _ _ hseen
  obtain ⟨hstate, hresult⟩ := (ScanState.oblivious_lending extra
    ⟨opened.store.graph.units.nextId, opened.fileOf source⟩).run_scanTypes hlent
    config.recordAccesses (Header.ofTree (opened.fileOf source) (parsed config source).root).1
    source.path (parsed config source).root
  have hkeeps : Keeps (ScanState.Stays (ScanState.Lent extra opened.store.graph.units.nextId))
      (scanTypes config.recordAccesses ⟨opened.store.graph.units.nextId, opened.fileOf source⟩
        (Header.ofTree (opened.fileOf source) (parsed config source).root).1 source.path
        (parsed config source).root) := inferInstance
  rw [← hinitial] at hstate hresult
  exact ⟨hstate, hresult, (hkeeps.keeps _ hlent).honest⟩

/-- The scan of a file does the same if the scope answers for others. -/
private theorem scanOne_lending (hs : (opened.lending extra).Sound)
    (ht : (opened.lending extra).Tidy) (hh : Scope.Honest opened.store.graph opened.scope)
    (ha : opened.scope.artifact? = some artifact) (config : ScanConfig) (source : SourceText) :
    ∃ report after, scanOne config source opened = (.ok report, after) ∧
      scanOne config source (opened.lending extra) = (.ok report, after.lending extra) ∧
      Scope.Honest after.store.graph after.scope := by
  have ha' : (opened.lending extra).scope.artifact? = opened.scope.artifact? :=
    Scope.artifact?_lending ..
  cases hu : opened.store.graph.unitAt? source.path opened.scope.artifact? with
  | some unit =>
    obtain ⟨node, hn, -⟩ := Graph.get?_of_unitAt? hu
    have hu' : (opened.lending extra).store.graph.unitAt? source.path
        (opened.lending extra).scope.artifact? = some unit := by
      rw [ha']
      exact hu
    exact ⟨_, _, scanOne_existing config hu hn, scanOne_existing config hu' hn, hh⟩
  | none =>
    have hu' : (opened.lending extra).store.graph.unitAt? source.path
        (opened.lending extra).scope.artifact? = none := by
      rw [ha']
      exact hu
    obtain ⟨hstate, hresult, hhonest⟩ := passes_lending hs hh config source
    obtain ⟨declared, -, -, hr, -⟩ := reached_passes hs ht config source (by
      rw [ha', ha]
      rfl)
    have hrun := scanOne_passes config
      (fun {owner} (ho : opened.scope.artifact? = some owner) =>
        Scope.Sound.artifact_known hs (ha'.trans ho)) hu
    have hrun' := scanOne_new config hs hu'
    rw [(hresult declared).2 hr] at hrun
    rw [hr, hstate] at hrun'
    exact ⟨_, _, hrun, hrun', hhonest⟩

/-- The scan of a new file is about the universe of the scope. -/
private theorem elsewhere_passes (hs : opened.Sound) (ht : opened.Tidy) (config : ScanConfig)
    (source : SourceText) {home : Universe} (hne : home ≠ opened.scope.artifact?) :
    Elsewhere home opened.scope.artifact? opened.store.graph
      (passes config opened source).2.store.graph := by
  have hp := paired_passes hs ht config source
  refine ⟨hne.symm, (since_withSource ..).trans hp.graphs.since, fun hx hsx =>
    home_passes hs ht hx hsx, fun {x} hx => ?_, hp.graphs.newUses.1, fun id hid => ?_⟩
  · obtain ⟨y, hy, -, ha⟩ := hp.graphs.since.extended.unit (unit_initial
      (opened.seeing source.path) (opened.fileOf source) source.path (parsed config source))
    cases hx.symm.trans hy
    exact ha
  · rw [hp.graphs.surroundings.artifacts]
    refine (get?_artifacts_withSource ..).trans ?_
    have hother : opened.scope.artifact? ≠ some id := fun h => hne (hid.trans h.symm)
    change (opened.store.graph.artifacts.get? id).map (fun x =>
      if opened.scope.artifact? = some id then _ else x) = _
    simp only [if_neg hother, Option.map_id']

/-- What the scan of a file in the open scope of an artifact leaves. -/
structure Proceeds (artifact : ArtifactId) (opened after : OpenProject) : Prop where
  scope : after.scope.OpenIn after.store.graph artifact
  tidy : after.store.graph.Tidy
  answers : after.store.answers = opened.store.answers
  files : ∀ {file path}, opened.files.path? file = some path → after.files.path? file = some path
  /-- Other universes stay as they are. -/
  graph : after.store.graph = opened.store.graph ∨ ∀ home, home ≠ some artifact →
    Elsewhere home (some artifact) opened.store.graph after.store.graph
  extended : Extends opened.store.graph after.store.graph
  dependencies : ∀ owner, after.store.graph.dependenciesOf owner =
    opened.store.graph.dependenciesOf owner

/-- The scan of any file in an open scope succeeds, and leaves the scope open. -/
theorem proceeds_scanOne (opened : OpenProject) (h : opened.scope.OpenIn opened.store.graph artifact)
    (ht : opened.store.graph.Tidy) (config : ScanConfig) (source : SourceText) :
    ∃ report after, scanOne config source opened = (.ok report, after) ∧
      opened.Proceeds artifact after := by
  obtain ⟨extra, hs⟩ := h.sound
  have hs : (opened.lending extra).Sound := hs
  have ht : (opened.lending extra).Tidy := ⟨ht, (Twins.borrowedKnown_lending_iff extra).2 h.borrowed⟩
  have ha : (opened.lending extra).scope.artifact? = some artifact :=
    (Scope.artifact?_lending ..).trans h.artifact
  obtain ⟨report, after, hrun, hlent, hhonest⟩ :=
    scanOne_lending hs ht h.honest h.artifact config source
  have hs' := scanSource_sound (opened.lending extra) config source.path source.text hs
  have ht' := scanSource_tidy hs ht config source.path source.text
  change (scanOne config source (opened.lending extra)).2.Sound at hs'
  change (scanOne config source (opened.lending extra)).2.Tidy at ht'
  rw [hlent] at hs' ht'
  -- What is read off the project that lends is so in the project itself.
  suffices hafter : (after.lending extra).scope.artifact? = some artifact ∧
      (after.lending extra).store.answers = opened.store.answers ∧
      (after.lending extra).files = (opened.seeing source.path).files ∧
      ((after.lending extra).store.graph = opened.store.graph ∨ ∀ home, home ≠ some artifact →
        Elsewhere home (some artifact) opened.store.graph (after.lending extra).store.graph) ∧
      Extends opened.store.graph (after.lending extra).store.graph ∧
      ∀ owner, (after.lending extra).store.graph.dependenciesOf owner =
        opened.store.graph.dependenciesOf owner by
    obtain ⟨hartifact, hanswers, hfiles, hgraph, hextended, hdependencies⟩ := hafter
    refine ⟨report, after, hrun, ⟨⟨(Scope.artifact?_lending ..).symm.trans hartifact, ⟨extra, hs'⟩,
      (Twins.borrowedKnown_lending_iff extra).1 ht'.borrowed, hhonest⟩, ht'.graph, hanswers,
      fun hp => ?_, hgraph, hextended, hdependencies⟩⟩
    change after.files = _ at hfiles
    rw [hfiles]
    exact FileSet.path?_insert hp
  cases hu : (opened.lending extra).store.graph.unitAt? source.path
      (opened.lending extra).scope.artifact? with
  | some unit =>
    obtain ⟨node, hn, -⟩ := Graph.get?_of_unitAt? hu
    rw [scanOne_existing config hu hn] at hlent
    rw [← (Prod.mk.inj hlent).2]
    exact ⟨ha, rfl, rfl, .inl rfl, .refl _, fun _ => rfl⟩
  | none =>
    have hp := paired_passes hs ht config source
    rw [scanOne_new config hs hu] at hlent
    rw [← (Prod.mk.inj hlent).2]
    have hsince : Since opened.store.graph.units.nextId (opened.lending extra).scope.artifact?
        opened.store.graph (passes config (opened.lending extra) source).2.store.graph :=
      (since_withSource ..).trans hp.graphs.since
    refine ⟨hp.scope.trans ha, ?_, rfl, .inr fun home hne => ?_, hsince.extended,
      hsince.dependencies⟩
    · have hseen : ((opened.lending extra).seeing source.path).Sound := hs
      have hseen' : ((opened.lending extra).seeing source.path).Tidy := ⟨ht.graph, ht.borrowed⟩
      exact (scanned_diagonal hseen hseen' rfl).2.1.left
    · rw [← ha] at hne ⊢
      exact elsewhere_passes hs ht config source hne

/-- Two open projects are alongside if they are so when their scopes answer for others. -/
private theorem alongside_lending_iff {deps : List ArtifactId} (extra extra' : List TypeId) :
    Alongside deps (opened.lending extra) (opened'.lending extra') ↔
      Alongside deps opened opened' := by
  have hs : (opened.lending extra).scope.artifact? = opened.scope.artifact? :=
    Scope.artifact?_lending ..
  have hs' : (opened'.lending extra').scope.artifact? = opened'.scope.artifact? :=
    Scope.artifact?_lending ..
  constructor
  · rintro ⟨ha, hc, hp, hl, hanswers⟩
    rw [hs] at ha hc hp hl
    rw [hs'] at ha
    exact ⟨ha, hc, (Scope.peers_lending_iff ..).1 hp, hl, hanswers⟩
  · rintro ⟨ha, hc, hp, hl, hanswers⟩
    refine ⟨?_, ?_, ?_, ?_, hanswers⟩
    · rw [hs, hs', ha]
    all_goals rw [hs]
    · exact hc
    · exact (Scope.peers_lending_iff ..).2 hp
    · exact hl

/-- A file that is scanned in two open projects leaves them alongside, whatever else is open, and the
reports are the same up to identifiers. -/
theorem Alongside.together {deps : List ArtifactId} (h : Alongside deps opened opened')
    (ho : opened.scope.OpenIn opened.store.graph artifact) (ht : opened.store.graph.Tidy)
    (ho' : opened'.scope.OpenIn opened'.store.graph artifact) (ht' : opened'.store.graph.Tidy)
    (config : ScanConfig) (source : SourceText) :
    ∃ report report' after after', OpenProject.scanOne config source opened = (.ok report, after) ∧
      OpenProject.scanOne config source opened' = (.ok report', after') ∧
      Alongside deps after after' ∧
      UnitReport.Alike (FileSet.SameFile after.files after'.files)
        (SameUnit after.store.graph after'.store.graph)
        (SameType after.store.graph after'.store.graph) report report' := by
  obtain ⟨extra, hs⟩ := ho.sound
  obtain ⟨extra', hs'⟩ := ho'.sound
  have hs : (opened.lending extra).Sound := hs
  have hs' : (opened'.lending extra').Sound := hs'
  have ht : (opened.lending extra).Tidy :=
    ⟨ht, (Twins.borrowedKnown_lending_iff extra).2 ho.borrowed⟩
  have ht' : (opened'.lending extra').Tidy :=
    ⟨ht', (Twins.borrowedKnown_lending_iff extra').2 ho'.borrowed⟩
  obtain ⟨report, after, hrun, hlent, -⟩ :=
    scanOne_lending hs ht ho.honest ho.artifact config source
  obtain ⟨report', after', hrun', hlent', -⟩ :=
    scanOne_lending hs' ht' ho'.honest ho'.artifact config source
  obtain ⟨r, r', u, u', hr, hr', halong, halike⟩ :=
    ((alongside_lending_iff extra extra').2 h).scanOne hs ht hs' ht' config source
  cases hr.symm.trans hlent
  cases hr'.symm.trans hlent'
  exact ⟨_, _, _, _, hrun, hrun', (alongside_lending_iff extra extra').1 halong, halike⟩

end OpenProject

end JavaGraph
