import JavaGraph.Proofs.Scan.Resolving
import JavaGraph.Proofs.Scan.Upheld
import JavaGraph.Proofs.Scan.Walk
/-!
# What becomes of declarations

Every declaration of a file is declared or refused. One is refused if its name is malformed or
declared already; that is reported, and what is within it is left out. Nothing makes the first pass
over a file fail, and the main type that is chosen then is one of the declared types, so the file
goes on to be read.
-/

namespace JavaGraph

open JavaGraph.Action

namespace Site

/-- What becomes of sites: the types that are declared, each before those within it, and what is
reported. A name that is refused as a duplicate is declared by the unit that is named. -/
inductive Accounted (source : SourceUnit) (package : Option String) (home : Universe)
    (graph : Graph) : Option DeclaredType → List Site → List DeclaredType → List Diagnostic → Prop
  | nil (outer : Option DeclaredType) : Accounted source package home graph outer [] [] []
  | malformed {outer : Option DeclaredType} {site : Site} {rest : List Site}
      {types : List DeclaredType} {found : List Diagnostic} {e : NameError} :
      site.qualifiedName package outer = .error e →
      Accounted source package home graph outer rest types found →
      Accounted source package home graph outer (site :: rest) types
        (site.malformed source.file :: found)
  | duplicate {outer : Option DeclaredType} {site : Site} {rest : List Site}
      {types : List DeclaredType} {found : List Diagnostic} {name : QualifiedName}
      {existing : UnitId} :
      site.qualifiedName package outer = .ok name →
      Twins.DeclaredAs graph name home existing →
      Accounted source package home graph outer rest types found →
      Accounted source package home graph outer (site :: rest) types
        (.atNode source.file site.node (.duplicateDeclaration name.text existing) :: found)
  | declared {outer : Option DeclaredType} {site : Site} {rest : List Site}
      {inner types : List DeclaredType} {found others : List Diagnostic} {name : QualifiedName}
      {id : TypeId} {x : TypeNode} :
      site.qualifiedName package outer = .ok name →
      graph.types.get? id = some x → x.name = name → x.home = home →
      x.state = .complete source.unit →
      Accounted source package home graph (some (site.declaredType outer name id)) site.within
        inner found →
      Accounted source package home graph outer rest types others →
      Accounted source package home graph outer (site :: rest)
        (site.declaredType outer name id :: inner ++ types) (found ++ others)

variable {source : SourceUnit} {package : Option String} {home : Universe} {graph after : Graph}
  {outer : Option DeclaredType} {site : Site} {sites : List Site} {types : List DeclaredType}
  {found : List Diagnostic} {name : QualifiedName} {s t : ScanState}

/-- What is accounted for stays so. -/
theorem Accounted.mono (h : Accounted source package home graph outer sites types found)
    (hp : Graph.Persists graph after) :
    Accounted source package home after outer sites types found := by
  induction h with
  | nil outer => exact .nil outer
  | malformed hn _ ih => exact .malformed hn ih
  | duplicate hn hd _ ih =>
    obtain ⟨id, x, hx, hname, hhome, hs⟩ := hd
    obtain ⟨y, hy, hny, hhy, hsy⟩ := hp.type hx
    exact .duplicate hn ⟨id, y, hy, hny.trans hname, hhy.trans hhome, (hsy _ hs).1⟩ ih
  | declared hn hx hname hhome hs _ _ ih ih' =>
    obtain ⟨y, hy, hny, hhy, hsy⟩ := hp.type hx
    exact .declared hn hy (hny.trans hname) (hhy.trans hhome) (hsy _ hs).1 ih ih'

/-- Every declared type is known and declared by the unit. -/
theorem Accounted.complete (h : Accounted source package home graph outer sites types found) :
    ∀ type ∈ types, ∃ x, graph.types.get? type.id = some x ∧ x.name = type.name ∧ x.home = home ∧
      x.state = .complete source.unit := by
  induction h with
  | nil outer => exact fun _ hm => by cases hm
  | malformed _ _ ih => exact ih
  | duplicate _ _ _ ih => exact ih
  | declared hn hx hname hhome hs _ _ ih ih' =>
    intro type hm
    rcases List.mem_append.1 hm with hm | hm
    · rcases List.mem_cons.1 hm with rfl | hm
      · exact ⟨_, hx, hname, hhome, hs⟩
      · exact ih type hm
    · exact ih' type hm

/-- Sites in sequence are accounted for. -/
private theorem Accounted.append {more : List Site} {types' : List DeclaredType}
    {found' : List Diagnostic} (h : Accounted source package home graph outer sites types found)
    (h' : Accounted source package home graph outer more types' found') :
    Accounted source package home graph outer (sites ++ more) (types ++ types')
      (found ++ found') := by
  induction h with
  | nil outer => exact h'
  | malformed hn _ ih => exact .malformed hn (ih h')
  | duplicate hn hd _ ih => exact .duplicate hn hd (ih h')
  | declared hn hx hname hhome hs hinner _ _ ih' =>
    rw [List.cons_append, List.append_assoc, List.append_assoc]
    exact .declared hn hx hname hhome hs hinner (ih' h')

/-! ### One site -/

/-- The type around a site is known. -/
def Surrounded (graph : Graph) (outer : Option DeclaredType) : Prop :=
  ∀ type, outer = some type → ∃ x, graph.types.get? type.id = some x

/-- A type that is known stays known. -/
theorem Surrounded.mono (h : Surrounded graph outer) (hp : Graph.Persists graph after) :
    Surrounded after outer := by
  intro type ht
  obtain ⟨x, hx⟩ := h type ht
  obtain ⟨y, hy, -⟩ := hp.type hx
  exact ⟨y, hy⟩

/-- A type is listed in a known type around it. -/
private theorem listWithin_ok (h : Surrounded s.store.graph outer) (id : TypeId) :
    ∃ t, listWithin outer id s = (.ok (), t) ∧ t.scope = s.scope ∧
      t.diagnostics = s.diagnostics ∧ Graph.Persists s.store.graph t.store.graph := by
  cases outer with
  | none => exact ⟨s, rfl, rfl, rfl, Guarantee.refl _⟩
  | some type =>
    obtain ⟨x, hx⟩ := h type rfl
    have hl := (Graph.keeps_updateType type.id (fun type : TypeNode =>
      { type with innerTypes := type.innerTypes ++ [id] }) fun _ => ⟨rfl, rfl⟩).keeps
        s.store.graph
    rw [Graph.updateType_known _ hx] at hl
    exact ⟨_, ScanState.onGraph_run (Graph.updateType_known _ hx), rfl, rfl,
      .of_sameLedger hl⟩

/-- A site is a duplicate, or its type is declared. -/
theorem declareAs_cases (hs : s.Sound source.unit) (hh : s.scope.artifact? = home)
    (ho : Surrounded s.store.graph outer) (site : Site) (name : QualifiedName) :
    (∃ existing, Twins.DeclaredAs s.store.graph name home existing ∧
      site.declareAs source outer name s = (.ok none, s.saying
        (.atNode source.file site.node (.duplicateDeclaration name.text existing)))) ∨
    ∃ id t x, site.declareAs source outer name s =
        (.ok (some (site.declaredType outer name id)), t) ∧
      t.scope.artifact? = home ∧ t.diagnostics = s.diagnostics ∧
      t.store.graph.types.get? id = some x ∧ x.name = name ∧ x.home = home ∧
      x.state = .complete source.unit := by
  rcases Twins.inScope_declare_cases hs hh name with ⟨existing, hd, hrun⟩ | ⟨id, middle, ha, hrun⟩
  · exact .inl ⟨existing, hd, declareAs_duplicate hrun⟩
  · right
    have hupdate := Twins.updated_of_awaits source.unit ha hh site outer
    have hnew : site.declareAs source outer name s = _ := declareAs_new hrun hupdate
    have hkept : Graph.Persists s.store.graph
        (Twins.declaredGraph site outer middle id source.unit home) := by
      have hk : Keeps (ScanState.OnGraph Graph.Persists)
          (ScanState.inScope (·.declare name source.unit)) := ScanState.Guarantee.declare name
      have hp := hk.of_run hrun
      have hl := (Graph.keeps_updateType id (site.declaredNode outer) fun _ => ⟨rfl, rfl⟩).keeps
        (Twins.declaredState s source.unit name middle id).store.graph
      rw [hupdate] at hl
      exact Guarantee.trans hp (.of_sameLedger hl)
    obtain ⟨t, hlist, hscope, hdiagnostics, hp⟩ :=
      listWithin_ok (s := (Twins.declaredState s source.unit name middle id).withGraph
        (Twins.declaredGraph site outer middle id source.unit home)) (ho.mono hkept) id
    rw [bind_of_ok hlist] at hnew
    obtain ⟨⟨x, hx, hn, hhx, -⟩, -⟩ := ha
    have hself : (Twins.declaredGraph site outer middle id source.unit home).types.get? id =
        some (site.declaredNode outer { x with state := .complete source.unit, artifact := home }) := by
      unfold Twins.declaredGraph
      simp only
      rw [Arena.get?_modify, if_pos rfl, Graph.get?_types_withDeclaration, if_pos rfl, hx]
      rfl
    obtain ⟨y, hy, hny, hhy, hsy⟩ := hp.type hself
    refine ⟨id, t, y, hnew, ?_, hdiagnostics, hy, hny.trans hn, hhy.trans hhx, (hsy _ rfl).1⟩
    rw [hscope]
    exact (Scope.artifact?_withDeclared ..).trans hh

/-! ### All sites -/

/-- Sites are accounted for between two states. -/
private structure Accounts (source : SourceUnit) (package : Option String) (home : Universe)
    (outer : Option DeclaredType) (sites : List Site) (s : ScanState) (types : List DeclaredType)
    (t : ScanState) : Prop where
  sound : t.Sound source.unit
  scope : t.scope.artifact? = home
  persists : Graph.Persists s.store.graph t.store.graph
  reported : ∃ found, t.diagnostics = s.diagnostics ++ found ∧
    Accounted source package home t.store.graph outer sites types found

/-- One group of sites is accounted for after another. -/
private theorem Accounts.append {more : List Site} {types' : List DeclaredType} {u : ScanState}
    (h : Accounts source package home outer sites s types t)
    (h' : Accounts source package home outer more t types' u) :
    Accounts source package home outer (sites ++ more) s (types ++ types') u where
  sound := h'.sound
  scope := h'.scope
  persists := Guarantee.trans h.persists h'.persists
  reported := by
    obtain ⟨found, hd, ha⟩ := h.reported
    obtain ⟨found', hd', ha'⟩ := h'.reported
    refine ⟨found ++ found', by rw [hd', hd, List.append_assoc], ?_⟩
    exact (ha.mono h'.persists).append ha'

/-- A site that is refused is reported. -/
private theorem accounts_refused {diagnostic : Diagnostic} (hs : s.Sound source.unit)
    (hh : s.scope.artifact? = home)
    (ha : Accounted source package home s.store.graph outer [site] [] [diagnostic]) :
    Accounts source package home outer [site] s [] (s.saying diagnostic) :=
  ⟨hs, hh, Guarantee.refl _, _, rfl, ha⟩

/-- What a declaration leaves behind when it is followed by those within it. -/
private theorem accounts_declared {id : TypeId} {x : TypeNode} {u : ScanState}
    (hq : site.qualifiedName package outer = .ok name)
    (hp : Graph.Persists s.store.graph t.store.graph) (hd : t.diagnostics = s.diagnostics)
    (hx : t.store.graph.types.get? id = some x) (hn : x.name = name) (hh : x.home = home)
    (hc : x.state = .complete source.unit)
    (h : Accounts source package home (some (site.declaredType outer name id)) site.within t types
      u) :
    Accounts source package home outer [site] s (site.declaredType outer name id :: types) u where
  sound := h.sound
  scope := h.scope
  persists := Guarantee.trans hp h.persists
  reported := by
    obtain ⟨found, hf, ha⟩ := h.reported
    obtain ⟨y, hy, hny, hhy, hsy⟩ := h.persists.type hx
    refine ⟨found, by rw [hf, hd], ?_⟩
    have hall := Accounted.declared hq hy (hny.trans hn) (hhy.trans hh) (hsy _ hc).1 ha
      (.nil outer)
    rwa [List.append_nil, List.append_nil] at hall

mutual

/-- One site and those within it are accounted for. -/
private theorem accounts_declareTree : ∀ (site : Site) {outer : Option DeclaredType}
    {s : ScanState}, s.Sound source.unit → s.scope.artifact? = home →
    Surrounded s.store.graph outer →
    ∃ types t, declareTree source package outer site s = (.ok types, t) ∧
      Accounts source package home outer [site] s types t
  | ⟨name?, number?, base?, node, within⟩, outer, s => by
    intro hs hh ho
    unfold declareTree
    generalize hsite : (⟨name?, number?, base?, node, within⟩ : Site) = site
    have hwithin : site.within = within := by rw [← hsite]
    unfold declare
    cases hq : site.qualifiedName package outer with
    | error e =>
      exact ⟨[], _, rfl, accounts_refused hs hh (.malformed hq (.nil outer))⟩
    | ok name =>
      rcases declareAs_cases hs hh ho site name with ⟨existing, hd, hrun⟩ |
        ⟨id, t, x, hrun, hht, hdiagnostics, hx, hn, hhx, hc⟩
      · exact ⟨[], _, bind_of_ok hrun, accounts_refused hs hh (.duplicate hq hd (.nil outer))⟩
      · have hk : Keeps (ScanState.PassesOn source.unit) (site.declareAs source outer name) :=
          inferInstance
        have hp : Keeps (ScanState.OnGraph Graph.Persists) (site.declareAs source outer name) :=
          inferInstance
        have hsound := hk.of_run hrun hs
        have hpersists := hp.of_run hrun
        have hsurrounded : Surrounded t.store.graph (some (site.declaredType outer name id)) := by
          intro type ht
          cases ht
          exact ⟨x, hx⟩
        obtain ⟨types, u, hrest, ha⟩ := accounts_declareAll within hsound hht hsurrounded
        refine ⟨_, u, ?_, accounts_declared hq hpersists hdiagnostics hx hn hhx hc
          (hwithin ▸ ha)⟩
        simp only
        rw [bind_of_ok hrun]
        exact bind_of_ok hrest

/-- Sites in order, with those within them, are accounted for. -/
private theorem accounts_declareAll : ∀ (sites : List Site) {outer : Option DeclaredType}
    {s : ScanState}, s.Sound source.unit → s.scope.artifact? = home →
    Surrounded s.store.graph outer →
    ∃ types t, declareAll source package outer sites s = (.ok types, t) ∧
      Accounts source package home outer sites s types t
  | [], outer, s => by
    intro hs hh ho
    unfold declareAll
    exact ⟨[], s, rfl, hs, hh, Guarantee.refl _, [], (List.append_nil _).symm, .nil outer⟩
  | site :: rest, outer, s => by
    intro hs hh ho
    obtain ⟨here, t, hrun, ha⟩ := accounts_declareTree site hs hh ho
    obtain ⟨others, u, hrun', ha'⟩ :=
      accounts_declareAll rest ha.sound ha.scope (ho.mono ha.persists)
    refine ⟨here ++ others, u, ?_, ha.append ha'⟩
    unfold declareAll
    rw [bind_of_ok hrun, bind_of_ok hrun']
    rfl

end

end Site

/-- The first pass over a file does not fail, and every declaration is accounted for. -/
theorem Declarations.accounted_declare {source : SourceUnit} {s : ScanState} {home : Universe}
    (hs : s.Sound source.unit) (hh : s.scope.artifact? = home) (header : Header) (root : Tree) :
    ∃ declared t found, Declarations.declare source header root s = (.ok declared, t) ∧
      t.diagnostics = s.diagnostics ++ found ∧
      Site.Accounted source header.package home t.store.graph none (Site.ofTree root)
        declared.types found := by
  obtain ⟨types, t, hrun, ha⟩ : ∃ types t,
      Site.declareAll source header.package none (Site.ofTree root) s = (.ok types, t) ∧
        Site.Accounts source header.package home none (Site.ofTree root) s types t :=
    Site.accounts_declareAll (Site.ofTree root) hs hh nofun
  obtain ⟨found, hd, haccounted⟩ := ha.reported
  have hdeclare : Declarations.declare source header root s = (.ok ⟨header,
      (Site.ofTree root).filterMap fun site => site.name?.map (·.text), types⟩, t) := by
    unfold Declarations.declare
    rw [bind_of_ok hrun]
    rfl
  exact ⟨_, t, found, hdeclare, hd, haccounted⟩

/-! ### The main type -/

/-- The main type is one of the declared types. -/
theorem Declarations.mem_of_mainType? {declared : Declarations} {path : String}
    {type : DeclaredType} (h : declared.mainType? path = some type) : type ∈ declared.types := by
  have hm : type ∈ declared.types.filter (·.outer.isEmpty) := by
    unfold mainType? at h
    rcases Option.or_eq_some_iff.1 h with h | ⟨-, h⟩
    · exact List.mem_of_find?_eq_some h
    · rcases Option.or_eq_some_iff.1 h with h | ⟨-, h⟩
      · exact List.mem_of_find?_eq_some h
      · exact List.mem_of_head? h
  exact List.mem_of_mem_filter hm

/-- The second and the third pass keep what their steps keep. -/
instance {R : ScanState → ScanState → Prop} [Action.Guarantee R] (recordAccesses : Bool)
    (source : SourceUnit) [h : ScanState.Recording source.unit R] (declared : Declarations) :
    Keeps R (readTypes recordAccesses source declared) := by
  have := fun accesses => keeps_flush_of_record h.record accesses
  unfold readTypes
  infer_instance

/-- What has been said about a file stays said. -/
def ScanState.Tells (before after : ScanState) : Prop := before.diagnostics <+: after.diagnostics

namespace ScanState

instance : Action.Guarantee Tells where
  refl _ := List.prefix_refl _
  trans h h' := List.IsPrefix.trans h h'

private theorem tells_inScope (operation : Scope → StoreAction (TypeId × Scope)) :
    Keeps Tells (inScope operation) := by
  constructor
  intro state
  unfold inScope
  cases operation state.scope state.store with
  | mk result store => cases result <;> exact List.prefix_refl _

instance (unit : UnitId) : Guarantee unit Tells where
  report _ := ⟨fun _ => List.prefix_append ..⟩
  note source target := by
    constructor
    intro state
    unfold noteDependency
    split <;> exact List.prefix_refl _
  resolve _ := tells_inScope _
  require _ := tells_inScope _
  declare _ := tells_inScope _
  record _ _ _ := ⟨fun _ => List.prefix_refl _⟩
  mainType _ := ⟨fun _ => List.prefix_refl _⟩

end ScanState

/-- A scan is the reading of a file whose types are all declared and whose main type is chosen. -/
structure Scanning (source : SourceUnit) (header : Header) (root : Tree) (s : ScanState)
    (declared : Declarations) (m m' : ScanState) : Prop where
  declare : Declarations.declare source header root s = (.ok declared, m)
  sound : m'.Sound source.unit
  scope : m'.scope = m.scope
  types : m'.store.graph.types = m.store.graph.types
  functions : m'.store.graph.functions = m.store.graph.functions
  accesses : m'.store.graph.accesses = m.store.graph.accesses
  dependencies : m'.dependencies = m.dependencies
  reported : ∃ found, m'.diagnostics = s.diagnostics ++ found ∧
    Site.Accounted source header.package s.scope.artifact? m'.store.graph none (Site.ofTree root)
      declared.types found

/-- The types of a file are declared without a failure, and then it is read. -/
theorem scanTypes_run (source : SourceUnit) {s : ScanState} (hs : s.Sound source.unit)
    (recordAccesses : Bool) (header : Header) (path : String) (root : Tree) :
    ∃ declared m m', Scanning source header root s declared m m' ∧
      scanTypes recordAccesses source header path root s =
        readTypes recordAccesses source declared m' := by
  obtain ⟨declared, m, found, hrun, hd, ha⟩ :=
    Declarations.accounted_declare hs rfl header root
  have hk : Keeps (ScanState.PassesOn source.unit) (Declarations.declare source header root) :=
    inferInstance
  have hsound := hk.of_run hrun hs
  unfold scanTypes
  rw [bind_of_ok hrun]
  cases hmain : declared.mainType? path with
  | none => exact ⟨declared, m, m, ⟨hrun, hsound, rfl, rfl, rfl, rfl, rfl, found, hd, ha⟩, rfl⟩
  | some type =>
    obtain ⟨x, hx, -, -, hc⟩ := ha.complete type (Declarations.mem_of_mainType? hmain)
    obtain ⟨node, hn, hm⟩ := hsound.1.consistent.complete_declared hx hc
    have hset := Graph.setMainType_declared hn hm
    have hl : Keeps Graph.SameLedger (Graph.setMainType source.unit type.id) := inferInstance
    have hkept := hl.of_run hset
    refine ⟨declared, m, m.withGraph (m.store.graph.withMainType source.unit type.id),
      ⟨hrun, hsound.withGraph hl hset, rfl, rfl, rfl, rfl, rfl, found, hd,
        ha.mono (.of_sameLedger hkept)⟩, ?_⟩
    dsimp only
    rw [bind_of_ok (ScanState.onGraph_run hset)]
    rfl

end JavaGraph
