import JavaGraph.Proofs.Graph.Released
import JavaGraph.Proofs.Scan.Beside
/-!
# The order of files

Whatever the order in which files are scanned, each leaves what it leaves when it is the first
one. So two orders give graphs that are the same up to identifiers.
-/

/-!
## Files that are scanned one after the other

The scan of one more file, and of a list of files, in the scope of an artifact without
dependencies. What is there in the end is what each file leaves when it is the first one.
-/

namespace JavaGraph.OpenProject

open List (Forall₂)
open JavaGraph.Action
open JavaGraph.Graph (SameType SameUnit Since Extends outline)

variable {config : ScanConfig} {first opened next : OpenProject} {done : List SourceText}
  {source : SourceText} {report : UnitReport}

/-- Nothing has been scanned. -/
theorem Scanned.nil (config : ScanConfig) (h : first.Independent) :
    first.Scanned config [] first where
  independent := h
  artifact := rfl
  files := id
  kept := .refl ..
  type hy _ := .inl hy
  unit hy := .inl ⟨_, hy, rfl⟩
  left _ hm := by cases hm
  has name := by simp

/-! ### A file that is there -/

/-- A path that has been seen changes nothing. -/
theorem Scanned.seeing (h : first.Scanned config done opened) {unit : UnitId}
    (hu : first.store.graph.unitAt? source.path first.scope.artifact? = some unit) :
    first.Scanned config (done ++ [source]) (opened.seeing source.path) where
  independent := ⟨h.independent.sound, ⟨h.independent.tidy.graph, h.independent.tidy.borrowed⟩,
    h.independent.scope⟩
  artifact := h.artifact
  files hp := FileSet.path?_insert (h.files hp)
  kept := h.kept
  type := by
    intro id y hy hc
    rcases h.type hy hc with hx | ⟨other, ho, hl⟩
    · exact .inl hx
    · exact .inr ⟨other, List.mem_append_left _ ho, hl⟩
  unit := by
    intro k y hy
    rcases h.unit hy with hx | ⟨other, ho, hl⟩
    · exact .inl hx
    · exact .inr ⟨other, List.mem_append_left _ ho, hl⟩
  left := by
    intro other ho hn
    rcases List.mem_append.1 ho with ho | ho
    · exact h.left other ho hn
    · rw [List.mem_singleton.1 ho, hu] at hn
      cases hn
  has := by
    intro name
    have hgraph : (first.after config source).store.graph = first.store.graph := by
      obtain ⟨node, hn, -⟩ := Graph.get?_of_unitAt? hu
      unfold after
      rw [scanOne_existing config hu hn]
      rfl
    change opened.store.graph.Has name _ ↔ _
    rw [h.has name]
    constructor
    · rintro (hx | ⟨other, ho, hx⟩)
      · exact .inl hx
      · exact .inr ⟨other, List.mem_append_left _ ho, hx⟩
    · rintro (hx | ⟨other, ho, hx⟩)
      · exact .inl hx
      · rcases List.mem_append.1 ho with ho | ho
        · exact .inr ⟨other, ho, hx⟩
        · rw [List.mem_singleton.1 ho, hgraph] at hx
          exact .inl hx

/-- A file that was there before the others is reported as it is now. -/
private theorem Scanned.scan_existing (h : first.Scanned config done opened)
    (hf : first.Independent) {unit : UnitId}
    (hu : first.store.graph.unitAt? source.path first.scope.artifact? = some unit) :
    ∃ report, scanOne config source opened = (.ok report, opened.seeing source.path) ∧
      first.Reports config source (opened.seeing source.path) report := by
  obtain ⟨node, hn, hp, ha⟩ := Graph.get?_of_unitAt? hu
  obtain ⟨node', hn', ho⟩ := h.kept.unit hn
  have hpath : node'.path = node.path := congrArg (·.path) ho
  have hartifact : node'.artifact = node.artifact := congrArg (·.artifact) ho
  have hu' : opened.store.graph.unitAt? source.path opened.scope.artifact? = some unit := by
    cases hv : opened.store.graph.unitAt? source.path opened.scope.artifact? with
    | none =>
      refine absurd ?_ (Graph.ne_of_unitAt?_eq_none hv hn' (hpath.trans hp))
      rw [hartifact, ha, h.artifact]
    | some other =>
      obtain ⟨node'', hn'', hp'', ha''⟩ := Graph.get?_of_unitAt? hv
      rw [h.independent.tidy.graph.path hn'' hn' (hp''.trans (hpath.trans hp).symm) (by
        rw [ha'', hartifact, ha, h.artifact])]
  refine ⟨_, scanOne_existing config hu' hn',
    oldReport unit (first.fileOf source) source.path node, ?_, ?_, ?_, rfl, rfl, ?_, ?_, .nil⟩
  · rw [scanOne_existing config hu hn]
  · unfold after
    rw [scanOne_existing config hu hn]
    exact ⟨node, node', hn, hn', hpath.symm, hartifact.symm⟩
  · unfold after
    rw [scanOne_existing config hu hn]
    exact ⟨source.path, FileSet.path?_idOf .., FileSet.path?_idOf ..⟩
  · exact (congrArg (·.mayNotCompile) ho).symm
  · unfold after
    rw [scanOne_existing config hu hn]
    have hd : node'.declaredTypes = node.declaredTypes := congrArg (·.declaredTypes) ho
    change Forall₂ _ node.declaredTypes node'.declaredTypes
    rw [hd]
    exact (hf.tidy.graph.unit hn).declaredTypes.imp fun _ _ ht =>
      ht.mono (.refl _) h.kept.extended

/-! ### A new file -/

/-- A path that is new, and that no file before has, has no unit. -/
private theorem Scanned.unitAt?_eq_none (h : first.Scanned config done opened)
    (hn : first.store.graph.unitAt? source.path first.scope.artifact? = none)
    (hp : ∀ other ∈ done, other.path ≠ source.path) :
    opened.store.graph.unitAt? source.path opened.scope.artifact? = none := by
  cases hu : opened.store.graph.unitAt? source.path opened.scope.artifact? with
  | none => rfl
  | some unit =>
    obtain ⟨y, hy, hpath, hartifact⟩ := Graph.get?_of_unitAt? hu
    rcases h.unit hy with ⟨x, hx, ho⟩ | ⟨other, ho, hl⟩
    · have hpx : y.path = x.path := congrArg (·.path) ho
      have hax : y.artifact = x.artifact := congrArg (·.artifact) ho
      refine absurd ?_ (Graph.ne_of_unitAt?_eq_none hn hx (hpx.symm.trans hpath))
      rw [← hax, hartifact, h.artifact]
    · obtain ⟨node, hnode, hpn, -⟩ := hl.node
      rw [hy] at hnode
      cases hnode
      exact absurd (hpn.symm.trans hpath) (hp other ho)

/-- One more file has left what it leaves when it is the first one. -/
private theorem Scanned.add (h : first.Scanned config done opened) (hi : next.Independent)
    (ha : next.scope.artifact? = first.scope.artifact?)
    (hf : next.files = (opened.seeing source.path).files)
    (hs : Since opened.store.graph.units.nextId first.scope.artifact? opened.store.graph
      next.store.graph)
    (hu : Graph.NewUses opened.store.graph next.store.graph)
    (hl : first.Leaves config source next.store.graph opened.store.graph.units.nextId)
    (hn : ∀ name, next.store.graph.Has name first.scope.artifact? ↔
      opened.store.graph.Has name first.scope.artifact? ∨
        (first.after config source).store.graph.Has name first.scope.artifact?) :
    first.Scanned config (done ++ [source]) next := by
  have hlater : ∀ {other unit}, first.Leaves config other opened.store.graph unit →
      first.Leaves config other next.store.graph unit :=
    fun hl => hl.later hs (Arena.get?_nextId _) hu
  refine ⟨hi, ha, ?_, ?_, ?_, ?_, ?_, ?_⟩
  · intro file path hp
    rw [hf]
    exact FileSet.path?_insert (h.files hp)
  · exact h.kept.trans (.of_since hs h.independent.sound.consistent hu)
  · intro id y hy hc
    by_cases hsy : y.state = .complete opened.store.graph.units.nextId
    · exact .inr ⟨source, by simp, _, hl, hsy⟩
    · rcases hs.back hy hsy with hx | ⟨-, name, holder, rfl⟩
      · rcases h.type hx hc with hx | ⟨other, ho, unit, hl, hu⟩
        · exact .inl hx
        · exact .inr ⟨other, List.mem_append_left _ ho, unit, hlater hl, hu⟩
      · cases hc
  · intro k y hy
    by_cases hk : k = opened.store.graph.units.nextId
    · exact .inr ⟨source, by simp, hk ▸ hl⟩
    · have ho := hs.others hk
      rw [hy] at ho
      obtain ⟨x, hx, hxy⟩ := Option.map_eq_some_iff.1 ho.symm
      rcases h.unit hx with ⟨z, hz, hzx⟩ | ⟨other, ho, hl⟩
      · exact .inl ⟨z, hz, hxy.symm.trans hzx⟩
      · exact .inr ⟨other, List.mem_append_left _ ho, hlater hl⟩
  · intro other ho hno
    rcases List.mem_append.1 ho with ho | ho
    · obtain ⟨unit, hl⟩ := h.left other ho hno
      exact ⟨unit, hlater hl⟩
    · rw [List.mem_singleton.1 ho]
      exact ⟨_, hl⟩
  · intro name
    rw [hn, h.has name]
    constructor
    · rintro ((hx | ⟨other, ho, hx⟩) | hx)
      · exact .inl hx
      · exact .inr ⟨other, List.mem_append_left _ ho, hx⟩
      · exact .inr ⟨source, by simp, hx⟩
    · rintro (hx | ⟨other, ho, hx⟩)
      · exact .inl (.inl hx)
      · rcases List.mem_append.1 ho with ho | ho
        · exact .inl (.inr ⟨other, ho, hx⟩)
        · rw [List.mem_singleton.1 ho] at hx
          exact .inr hx

/-- The scan of a new file leaves what it leaves when it is the first one. -/
private theorem Scanned.scan_new (h : first.Scanned config done opened) (hf : first.Independent)
    (hn : first.store.graph.unitAt? source.path first.scope.artifact? = none)
    (hp : ∀ other ∈ done, other.path ≠ source.path)
    (hd : ∀ other ∈ done,
      (declaredNames config first other).Disjoint (declaredNames config first source)) :
    ∃ report next, scanOne config source opened = (.ok report, next) ∧
      first.Scanned config (done ++ [source]) next ∧ first.Reports config source next report ∧
      next.files = (opened.seeing source.path).files ∧
      Extends opened.store.graph next.store.graph := by
  obtain ⟨declared, declared', hr, hr', hpaired, hbeside, hv⟩ := h.beside hf hn hd
  have hrun₀ := scanOne_new config hf.sound hn
  have hrun := scanOne_new config h.independent.sound (h.unitAt?_eq_none hn hp)
  rw [hr] at hrun₀
  rw [hr'] at hrun
  have hgraph := graph_after config hf.sound hn
  have hsince : Since opened.store.graph.units.nextId first.scope.artifact? opened.store.graph
      (passes config opened source).2.store.graph :=
    (since_withSource ..).trans hpaired.graphs.since'
  have hleaves : first.Leaves config source (passes config opened source).2.store.graph
      opened.store.graph.units.nextId := by
    refine ⟨⟨twins config first opened source, rfl, rfl, ?_⟩, ?_, hn⟩
    · rw [hgraph]
      exact hpaired.graphs.imprint hf.tidy.graph.usesKnown h.independent.tidy.graph.usesKnown
    · obtain ⟨node, hnode, hpath, hartifact⟩ := hpaired.graphs.since'.extended.unit
        (unit_initial (opened.seeing source.path) (opened.fileOf source) source.path
          (parsed config source))
      exact ⟨node, hnode, hpath, hartifact.trans h.artifact⟩
  refine ⟨_, _, hrun, h.add ⟨?_, ?_, hbeside.scope'⟩ hpaired.scope' rfl hsince
    hpaired.graphs.newUses.2 hleaves ?_, ?_, rfl, hsince.extended⟩
  · have hsound := scanSource_sound opened config source.path source.text h.independent.sound
    change (scanOne config source opened).2.Sound at hsound
    rwa [hrun] at hsound
  · have htidy := scanSource_tidy h.independent.sound h.independent.tidy config source.path
      source.text
    change (scanOne config source opened).2.Tidy at htidy
    rwa [hrun] at htidy
  · intro name
    rw [hgraph]
    exact hbeside.has name
  · refine ⟨_, by rw [hrun₀]; rfl, ?_⟩
    have hfiles : (first.after config source).files = (first.seeing source.path).files := by
      unfold after
      rw [hrun₀]
    rw [hgraph, hfiles]
    obtain ⟨x, y, hx, hy, hxy⟩ := hpaired.graphs.unit
    refine ⟨⟨x, y, hx, hy, hxy.path, hxy.artifact⟩, ?_, rfl, rfl, rfl, ?_, ?_⟩
    · exact ⟨source.path, FileSet.path?_idOf .., FileSet.path?_idOf ..⟩
    · change Forall₂ _ (declared.types.map (·.id)) (declared'.types.map (·.id))
      rw [List.forall₂_map_left_iff, List.forall₂_map_right_iff]
      exact hv.types.imp fun _ _ hd => hd.alike.id
    · refine hpaired.diagnostics.imp fun _ _ hdiag => hdiag.imp ?_ id
      rintro a b ⟨rfl, rfl⟩
      exact ⟨source.path, FileSet.path?_idOf .., FileSet.path?_idOf ..⟩

/-! ### Lists of files -/

/-- Scan some files, one after the other. -/
def scanAll (config : ScanConfig) (sources : List SourceText) : OpenAction (List UnitReport) :=
  .mapEach sources (scanOne config)

/-- One more file is scanned as if it were the first one. -/
theorem Scanned.scan (h : first.Scanned config done opened) (hf : first.Independent)
    (source : SourceText)
    (hp : ∀ other ∈ done, other.path ≠ source.path)
    (hd : ∀ other ∈ done,
      (declaredNames config first other).Disjoint (declaredNames config first source)) :
    ∃ report next, scanOne config source opened = (.ok report, next) ∧
      first.Scanned config (done ++ [source]) next ∧ first.Reports config source next report ∧
      next.files = (opened.seeing source.path).files ∧
      Extends opened.store.graph next.store.graph := by
  cases hu : first.store.graph.unitAt? source.path first.scope.artifact? with
  | none => exact h.scan_new hf hu hp hd
  | some unit =>
    obtain ⟨report, hrun, hr⟩ := h.scan_existing hf hu
    exact ⟨report, _, hrun, h.seeing hu, hr, rfl, .refl _⟩

/-- The report on a file has its path. -/
theorem Reports.path_eq (hs : first.Sound) (h : first.Reports config source opened report) :
    report.path = source.path := by
  obtain ⟨other, hr, halike⟩ := h
  rw [← halike.path]
  cases hu : first.store.graph.unitAt? source.path first.scope.artifact? with
  | none =>
    rw [scanOne_new config hs hu] at hr
    cases hp : (passes config first source).1 with
    | ok declared =>
      rw [hp] at hr
      cases hr
      rfl
    | error e =>
      rw [hp] at hr
      cases hr
  | some unit =>
    obtain ⟨node, hn, -⟩ := Graph.get?_of_unitAt? hu
    rw [scanOne_existing config hu hn] at hr
    cases hr
    rfl

/-- Files that have paths and names of their own. -/
structure Apart (config : ScanConfig) (first : OpenProject) (sources : List SourceText) : Prop where
  paths : sources.Pairwise fun a b => a.path ≠ b.path
  names : sources.Pairwise fun a b =>
    (declaredNames config first a).Disjoint (declaredNames config first b)

/-- The order of files does not matter for that. -/
theorem Apart.perm {sources order : List SourceText} (h : first.Apart config sources)
    (ho : sources.Perm order) : first.Apart config order where
  paths := (ho.pairwise_iff fun hne => hne.symm).1 h.paths
  names := (ho.pairwise_iff List.disjoint_symm).1 h.names

/-- Files are scanned as if each were the first one. -/
theorem Scanned.scanAll (hf : first.Independent) (sources : List SourceText) :
    ∀ {done opened}, first.Scanned config done opened → first.Apart config (done ++ sources) →
      ∃ reports next, OpenProject.scanAll config sources opened = (.ok reports, next) ∧
        first.Scanned config (done ++ sources) next ∧
        Forall₂ (fun source report => first.Reports config source next report) sources reports ∧
        (∀ {file path}, opened.files.path? file = some path →
          next.files.path? file = some path) ∧
        Extends opened.store.graph next.store.graph := by
  induction sources with
  | nil =>
    intro done opened h ha
    exact ⟨[], opened, rfl, by rwa [List.append_nil], .nil, id, .refl _⟩
  | cons source rest ih =>
    intro done opened h ha
    have hp := (List.pairwise_append.1 ha.paths).2.2
    have hd := (List.pairwise_append.1 ha.names).2.2
    obtain ⟨report, middle, hrun, hm, hr, hfm, hem⟩ := h.scan hf source
      (fun other ho => hp other ho source (by simp)) fun other ho => hd other ho source (by simp)
    have ha' : first.Apart config ((done ++ [source]) ++ rest) := by
      rwa [List.append_assoc, List.singleton_append]
    obtain ⟨reports, next, hrest, hn, hall, hfn, hen⟩ := ih hm ha'
    refine ⟨report :: reports, next, ?_, by simpa using hn, .cons (hr.later hfn hen) hall, ?_,
      hem.trans hen⟩
    · unfold OpenProject.scanAll at hrest ⊢
      unfold mapEach
      rw [bind_of_ok hrun, bind_of_ok hrest]
      rfl
    · intro file path hpath
      refine hfn ?_
      rw [hfm]
      exact FileSet.path?_insert hpath

end JavaGraph.OpenProject

/-! ## Two orders -/

namespace JavaGraph

open List (Forall₂)
open JavaGraph.Graph (SameType SameUnit SameField SameFunction NodesAlike FieldsAlike FunctionsAlike
  Corresponds outline)

/-! ### Two imprints -/

namespace Twins

variable {P P' : Twins} {g G G' : Graph}

/-- Types that both graphs have from the same unit. -/
theorem Imprint.type (h : P.Imprint g G) (h' : P'.Imprint g G')
    (hu : P.source.unit = P'.source.unit)
    (hs : SameUnit G G' P.source'.unit P'.source'.unit) {id : TypeId} {x : TypeNode}
    (hx : g.types.get? id = some x) (hx' : x.state = .complete P.source.unit) :
    ∃ a b y z, G.types.get? a = some y ∧ G'.types.get? b = some z ∧ P.NodesAlike g G x y ∧
      P'.NodesAlike g G' x z ∧ Graph.NodesAlike G G' y z := by
  obtain ⟨a, y, hy, hxy⟩ := h.owned hx hx'
  obtain ⟨b, z, hz, hxz⟩ := h'.owned hx (hx'.trans (by rw [hu]))
  refine ⟨a, b, y, z, hy, hz, hxy, hxz, TypeNode.Alike.both ?_ (fun _ _ _ ht ht' => ht.both ht')
    (fun _ _ _ hf hf' => hf.1.both hf'.1) (fun _ _ _ hf hf' => hf.1.both hf'.1) hxy.toAlike
    hxz.toAlike⟩
  rintro c a b ⟨-, rfl⟩ ⟨-, rfl⟩
  exact hs

/-- New fields that came in with the same one have the same place. -/
private theorem Imprint.sameField (h : P.Imprint g G) (h' : P'.Imprint g G')
    (hu : P.source.unit = P'.source.unit) {c a b : FieldId} (ha : P.Fields g G c a)
    (hb : P'.Fields g G' c b) : SameField G G' a b := by
  obtain ⟨-, hfa, owner, x, hx, hs, hm⟩ := ha
  obtain ⟨-, hfb, -⟩ := hb
  obtain ⟨i, hi⟩ := List.mem_iff_getElem?.1 hm
  obtain ⟨id, y, hy, hxy⟩ := h.owned hx hs
  obtain ⟨id', z, hz, hxz⟩ := h'.owned hx (hs.trans (by rw [hu]))
  exact ⟨id, id', y, z, i, .of_get? hy hz (hxy.name.symm.trans hxz.name)
    (hxy.home.symm.trans hxz.home), hy, hz, place_of_fresh hxy.fields hi hfa,
    place_of_fresh hxz.fields hi hfb⟩

/-- New functions that came in with the same one have the same place. -/
private theorem Imprint.sameFunction (h : P.Imprint g G) (h' : P'.Imprint g G')
    (hu : P.source.unit = P'.source.unit) {c a b : FunctionId} (ha : P.Functions g G c a)
    (hb : P'.Functions g G' c b) : SameFunction G G' a b := by
  obtain ⟨-, hfa, owner, x, hx, hs, hm⟩ := ha
  obtain ⟨-, hfb, -⟩ := hb
  obtain ⟨i, hi⟩ := List.mem_iff_getElem?.1 hm
  obtain ⟨id, y, hy, hxy⟩ := h.owned hx hs
  obtain ⟨id', z, hz, hxz⟩ := h'.owned hx (hs.trans (by rw [hu]))
  exact ⟨id, id', y, z, i, .of_get? hy hz (hxy.name.symm.trans hxz.name)
    (hxy.home.symm.trans hxz.home), hy, hz, place_of_fresh hxy.functions hi hfa,
    place_of_fresh hxz.functions hi hfb⟩

/-- New functions in the same place use the same fields. -/
theorem Imprint.accessesFrom (h : P.Imprint g G) (h' : P'.Imprint g G')
    (hu : P.source.unit = P'.source.unit) {id : TypeId} {x y z : TypeNode} {i : Nat}
    {a b : FunctionId} (hx : g.types.get? id = some x) (hs : x.state = .complete P.source.unit)
    (hxy : P.NodesAlike g G x y) (hxz : P'.NodesAlike g G' x z) (ha : y.functions[i]? = some a)
    (hb : z.functions[i]? = some b) :
    Forall₂ (Access.Alike (SameField G G') (SameFunction G G')) (G.accessesFrom a)
      (G'.accessesFrom b) := by
  obtain ⟨c, hc, hca, hfa⟩ := getElem?_of_forall₂ hxy.functions.flip ha
  obtain ⟨b', hb', hcb, hfb⟩ := getElem?_of_forall₂ hxz.functions hc
  rw [hb] at hb'
  cases hb'
  have hm := List.mem_of_getElem? hc
  have hs' : x.state = .complete P'.source.unit := hs.trans (by rw [hu])
  refine forall₂_both ?_ (h.accesses ⟨hca, hfa, id, x, hx, hs, hm⟩)
    (h'.accesses ⟨hcb, hfb, id, x, hx, hs', hm⟩)
  intro u v w hv hw
  refine hv.both ?_ ?_ hw
  · exact fun _ _ _ hf hf' => h.sameField h' hu hf hf'
  · exact fun _ _ _ hf hf' => h.sameFunction h' hu hf hf'

end Twins

/-! ### Two orders -/

namespace OpenProject

variable {config : ScanConfig} {first opened next : OpenProject} {done order : List SourceText}
  {source : SourceText}

/-- The units in which a file has left something. -/
private theorem Leaves.sameUnit {graph other : Graph} {unit unit' : UnitId}
    (h : first.Leaves config source graph unit) (h' : first.Leaves config source other unit') :
    SameUnit graph other unit unit' := by
  obtain ⟨x, hx, hp, ha⟩ := h.node
  obtain ⟨y, hy, hp', ha'⟩ := h'.node
  exact ⟨x, y, hx, hy, hp.trans hp'.symm, ha.trans ha'.symm⟩

namespace Scanned

/-- A declared type is matched in the other graph, and its functions use the same fields. -/
private theorem declared (hf : first.Independent) (h : first.Scanned config done opened)
    (h' : first.Scanned config order next) (hm : ∀ {source}, source ∈ done → source ∈ order)
    {a b : TypeId} {x y : TypeNode} (hab : SameType opened.store.graph next.store.graph a b)
    (hx : opened.store.graph.types.get? a = some x)
    (hy : next.store.graph.types.get? b = some y) (hc : x.isComplete = true) :
    NodesAlike opened.store.graph next.store.graph x y ∧
      ∀ {i : Nat} {f g : FunctionId}, x.functions[i]? = some f → y.functions[i]? = some g →
        Forall₂ (Access.Alike (SameField opened.store.graph next.store.graph)
          (SameFunction opened.store.graph next.store.graph))
          (opened.store.graph.accessesFrom f) (next.store.graph.accessesFrom g) := by
  obtain ⟨x', y', hx', hy', hn, hh⟩ := hab.get?
  rw [hx] at hx'
  rw [hy] at hy'
  cases hx'
  cases hy'
  have hunique : ∀ {id z}, next.store.graph.types.get? id = some z → x.name = z.name →
      x.home = z.home → z = y := by
    intro id z hz hnz hhz
    obtain rfl := h'.independent.sound.consistent.unique hz hy (hnz.symm.trans hn)
      (hhz.symm.trans hh)
    rw [hy] at hz
    exact (Option.some.inj hz).symm
  rcases h.type hx hc with hfirst | ⟨source, hs, unit, hl, hu⟩
  · obtain rfl := hunique (h'.kept.complete hfirst hc) rfl rfl
    have halike := hf.tidy.graph.type hfirst hc
    refine ⟨halike.mono h.kept.extended h'.kept.extended, ?_⟩
    intro i f g hf' hg
    rw [hf'] at hg
    cases hg
    obtain ⟨-, -, function, -, hfunction, -⟩ :=
      mem_of_forall₂ halike.functions (List.mem_of_getElem? hf')
    rw [h.kept.uses.accessesFrom hfunction, h'.kept.uses.accessesFrom hfunction]
    refine List.forall₂_same.2 fun access haccess => ?_
    obtain ⟨⟨owner, z, hz, hcz, hmz⟩, owner', w, hw, hcw, hmw⟩ :=
      hf.tidy.graph.access (List.mem_of_mem_filter haccess)
    obtain ⟨i, hi⟩ := List.mem_iff_getElem?.1 hmz
    obtain ⟨j, hj⟩ := List.mem_iff_getElem?.1 hmw
    have hz₁ := h.kept.complete hz hcz
    have hz₂ := h'.kept.complete hz hcz
    have hw₁ := h.kept.complete hw hcw
    have hw₂ := h'.kept.complete hw hcw
    exact ⟨⟨owner', owner', w, w, j, .of_get? hw₁ hw₂ rfl rfl, hw₁, hw₂, hj, hj⟩,
      ⟨owner, owner, z, z, i, .of_get? hz₁ hz₂ rfl rfl, hz₁, hz₂, hi, hi⟩, rfl, rfl⟩
  · obtain ⟨unit', hl'⟩ := h'.left source (hm hs) hl.new
    have hsame := hl.sameUnit hl'
    obtain ⟨P, hP, rfl, hi⟩ := hl.imprint
    obtain ⟨P', hP', rfl, hi'⟩ := hl'.imprint
    have hunit : P.source.unit = P'.source.unit := hP.trans hP'.symm
    obtain ⟨id, z, hz, hzx⟩ := hi.owned' hx hu
    have hsz := hzx.state' hu
    obtain ⟨a', b', x', y', hx', hy', hzx', hzy, hxy⟩ := hi.type hi' hunit hsame hz hsz
    obtain rfl : x' = x := by
      obtain rfl := h.independent.sound.consistent.unique hx' hx (hzx'.name.symm.trans hzx.name)
        (hzx'.home.symm.trans hzx.home)
      rw [hx] at hx'
      exact (Option.some.inj hx').symm
    obtain rfl := hunique hy' hxy.name hxy.home
    exact ⟨hxy, fun hf' hg => hi.accessesFrom hi' hunit hz hsz hzx hzy hf' hg⟩

/-- A unit is matched in the other graph. -/
private theorem matched (hf : first.Independent) (h : first.Scanned config done opened)
    (h' : first.Scanned config order next) (hm : ∀ {source}, source ∈ done → source ∈ order)
    {k : UnitId} {x : CompilationUnit} (hx : opened.store.graph.units.get? k = some x) :
    ∃ k' y, next.store.graph.units.get? k' = some y ∧
      CompilationUnit.Alike (SameType opened.store.graph next.store.graph) x y := by
  rcases h.unit hx with ⟨z, hz, hzx⟩ | ⟨source, hs, hl⟩
  · obtain ⟨y, hy, hzy⟩ := h'.kept.unit hz
    exact ⟨k, y, hy, ((hf.tidy.graph.unit hz).imp fun ht =>
      ht.mono h.kept.extended h'.kept.extended).congr hzx hzy⟩
  · obtain ⟨unit', hl'⟩ := h'.left source (hm hs) hl.new
    obtain ⟨P, hP, rfl, hi⟩ := hl.imprint
    obtain ⟨P', hP', rfl, hi'⟩ := hl'.imprint
    obtain ⟨z, x', hz, hx', hzx⟩ := hi.unit
    obtain ⟨z', y, hz', hy, hzy⟩ := hi'.unit
    rw [hP] at hz
    rw [hP', hz] at hz'
    rw [hx] at hx'
    cases hz'
    cases hx'
    exact ⟨_, y, hy, hzx.both (fun _ _ _ ht ht' => ht.both ht') hzy⟩

/-- A name that is in one graph is in the other. -/
private theorem labelled (h : first.Scanned config done opened)
    (h' : first.Scanned config order next) (hm : ∀ {source}, source ∈ done → source ∈ order)
    {label : QualifiedName × Universe}
    (hl : ∃ id, opened.store.graph.label id = some label) :
    ∃ id, next.store.graph.label id = some label := by
  obtain ⟨name, home⟩ := label
  by_cases hh : home = first.scope.artifact?
  · subst hh
    rw [← Graph.has_iff, h'.has name]
    rw [← Graph.has_iff, h.has name] at hl
    rcases hl with hl | ⟨source, hs, hl⟩
    · exact .inl hl
    · exact .inr ⟨source, hm hs, hl⟩
  · obtain ⟨id, hl⟩ := hl
    obtain ⟨y, hy, he⟩ := Graph.get?_of_label hl
    cases he
    cases hx : first.store.graph.types.get? id with
    | none => exact absurd (h.kept.within hy hx) hh
    | some x =>
      have hlx := Graph.label_of_get? hx
      have hly := h.kept.extended.label hlx
      rw [hl] at hly
      exact ⟨id, by rw [h'.kept.extended.label hlx, hly]⟩

/-- Two orders give graphs that are the same up to identifiers. -/
theorem corresponds (hf : first.Independent) (h : first.Scanned config done opened)
    (h' : first.Scanned config order next) (hm : ∀ {source}, source ∈ done ↔ source ∈ order) :
    Corresponds opened.store.graph next.store.graph where
  types label := ⟨fun hl => h.labelled h' hm.1 hl, fun hl => h'.labelled h hm.2 hl⟩
  type := by
    intro a b x y hab hx hy
    cases hc : x.isComplete with
    | true => exact (h.declared hf h' hm.1 hab hx hy hc).1
    | false =>
      obtain ⟨x', y', hx', hy', hn, hh⟩ := hab.get?
      rw [hx] at hx'
      rw [hy] at hy'
      cases hx'
      cases hy'
      cases hcy : y.isComplete with
      | true =>
        have hba : SameType next.store.graph opened.store.graph b a :=
          .of_get? hy hx hn.symm hh.symm
        have hd := (h'.declared hf h hm.2 hba hy hx hcy).1.declaredBy
        rw [TypeNode.isComplete_eq_isSome] at hc hcy
        cases hxd : x.state.declaredBy with
        | some unit => rw [hxd] at hc; cases hc
        | none =>
          cases hyd : y.state.declaredBy with
          | none => rw [hyd] at hcy; cases hcy
          | some unit => rw [hxd, hyd] at hd; cases hd
      | false =>
        obtain ⟨holder, hbx⟩ := h.independent.tidy.graph.blank hx hc
        obtain ⟨holder', hby⟩ := h'.independent.tidy.graph.blank hy hcy
        rw [hbx, hby, hn, hh]
        exact ⟨rfl, rfl, .none, rfl, rfl, rfl, rfl, fun _ => .none, fun _ => .nil, .nil, .none,
          rfl, .nil, .nil, .nil⟩
  accesses := by
    rintro f g ⟨owner, owner', x, y, place, hab, hx, hy, hf', hg⟩
    cases hc : x.isComplete with
    | true => exact (h.declared hf h' hm.1 hab hx hy hc).2 hf' hg
    | false =>
      obtain ⟨holder, hbx⟩ := h.independent.tidy.graph.blank hx hc
      rw [hbx] at hf'
      cases hf'
  units path artifact := by
    constructor
    · rintro ⟨id, x, hx, rfl, rfl⟩
      obtain ⟨k, y, hy, hxy⟩ := h.matched hf h' hm.1 hx
      exact ⟨k, y, hy, hxy.path.symm, hxy.artifact.symm⟩
    · rintro ⟨id, x, hx, rfl, rfl⟩
      obtain ⟨k, y, hy, hxy⟩ := h'.matched hf h hm.2 hx
      exact ⟨k, y, hy, hxy.path.symm, hxy.artifact.symm⟩
  unit := by
    rintro a b x y ⟨x', y', hx', hy', hp, ha⟩ hx hy
    rw [hx] at hx'
    rw [hy] at hy'
    cases hx'
    cases hy'
    obtain ⟨k, z, hz, hxz⟩ := h.matched hf h' hm.1 hx
    obtain rfl := h'.independent.tidy.graph.path hz hy (hxz.path.symm.trans hp)
      (hxz.artifact.symm.trans ha)
    rw [hy] at hz
    cases hz
    exact hxz

end Scanned

end OpenProject

end JavaGraph
