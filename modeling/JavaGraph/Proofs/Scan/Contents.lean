import JavaGraph.Proofs.Parser.BuildingGrammar
import JavaGraph.Proofs.Scan.Assigned
import JavaGraph.Proofs.Scan.Counted
import JavaGraph.Proofs.Scan.Settled
import JavaGraph.Proofs.Scan.Trace
/-!
# What is in a scanned file

When a new file is scanned, its types are declared at the places of its tree that declare types, and
then what is written in them comes in. The types are new, so all that they have in the end is what
the file says.
-/

namespace JavaGraph

open JavaGraph.Action

namespace Site

variable {source : SourceUnit} {package : Option String} {home : Universe} {graph : Graph}
  {outer : Option DeclaredType} {sites : List Site} {types : List DeclaredType}
  {found : List Diagnostic}

/-- The types around a declared type are declared as well, or they are around all of them. -/
private theorem Accounted.outer_mem
    (h : Accounted source package home graph outer sites types found) :
    ∀ type ∈ types, ∀ id ∈ type.outer,
      id ∈ types.map (·.id) ∨ ∃ around, outer = some around ∧ id ∈ around.id :: around.outer := by
  induction h with
  | nil outer => exact List.forall_mem_nil _
  | malformed _ _ ih => exact ih
  | duplicate _ _ _ ih => exact ih
  | @declared outer site rest inner types found others name here x _ _ _ _ _ _ _ ih ih' =>
    have hself : ∀ id ∈ (site.declaredType outer name here).outer,
        ∃ around, outer = some around ∧ id ∈ around.id :: around.outer := by
      intro id hid
      cases outer with
      | none => cases hid
      | some around => exact ⟨around, rfl, hid⟩
    rw [List.map_append, List.map_cons]
    refine List.forall_mem_append.2 ⟨List.forall_mem_cons.2 ⟨fun id hid => .inr (hself id hid),
      fun type hm id hid => ?_⟩, fun type hm id hid => ?_⟩
    · rcases ih type hm id hid with h | ⟨around, ha, h⟩
      · exact .inl (List.mem_append_left _ (List.mem_cons_of_mem _ h))
      · cases ha
        rcases List.mem_cons.1 h with rfl | h
        · exact .inl (List.mem_append_left _ (List.mem_cons_self ..))
        · exact .inr (hself id h)
    · exact (ih' type hm id hid).imp_left fun h => List.mem_append_right _ h

/-- The types of a file, and the remarks on those that are refused, at the places of its tree. -/
structure Layout (root : Tree) (package : Option String) (file : FileId) (types : List DeclaredType)
    (diagnostics : List Diagnostic) (laid : List (Site × Place))
    (placed : List (DeclaredType × Place)) (refused : List (Diagnostic × Place)) : Prop where
  sites : Laid root none (ofTree root) laid
  perm : (laid.map (·.2)).Perm (Tree.sitesOf [] root)
  types : placed.map (·.1) = types
  said : ∀ pair ∈ refused, pair.1 ∈ diagnostics
  assigned : Assigned root package file none none laid placed refused

end Site

namespace OpenProject

/-- The contents of a new file come into a project. The graph before is the one in which the types
of the file are declared and nothing is read. -/
structure Contents (opened : OpenProject) (config : ScanConfig) (source : SourceText)
    (declared : Declarations) (found : List TypeMembers) (before : Graph) (after : ScanState) :
    Prop where
  into : declared.ReadInto ⟨opened.store.graph.units.nextId, opened.fileOf source⟩
    config.recordAccesses found before after.store.graph
  distinct : (declared.types.map (·.id)).Nodup
  usesKnown : before.UsesKnown
  memberless : Declarations.ReadInto.Memberless declared before
  placed : ∀ type ∈ declared.types, type.PlacedIn before
  outer : ∀ type ∈ declared.types, ∀ id ∈ type.outer, id ∈ declared.types.map (·.id)
  accounted : ∃ reports, Site.Accounted ⟨opened.store.graph.units.nextId, opened.fileOf source⟩
      (Header.ofTree (opened.fileOf source) (parsed config source).root).1.package
      opened.scope.artifact? after.store.graph none (Site.ofTree (parsed config source).root)
      declared.types reports ∧ ∀ report ∈ reports, report ∈ after.diagnostics

variable {opened : OpenProject} {config : ScanConfig} {source : SourceText}
  {declared : Declarations} {s : ScanState}

/-- The types of a new file are declared, and then it is read. -/
theorem read_passes (hs : opened.Sound) (hr : passes config opened source = (.ok declared, s)) :
    ∃ m m', Scanning ⟨opened.store.graph.units.nextId, opened.fileOf source⟩
        (Header.ofTree (opened.fileOf source) (parsed config source).root).1
        (parsed config source).root (opened.initial (opened.fileOf source) source.path
          (parsed config source)) declared m m' ∧
      readTypes config.recordAccesses ⟨opened.store.graph.units.nextId, opened.fileOf source⟩
        declared m' = (.ok declared, s) := by
  have hs' : (opened.seeing source.path).Sound := hs
  have hinitial := initial_sound (opened.fileOf source) source.path (parsed config source) hs'
  obtain ⟨other, m, m', hscan, hread⟩ := scanTypes_run
    ⟨opened.store.graph.units.nextId, opened.fileOf source⟩ hinitial
    config.recordAccesses (Header.ofTree (opened.fileOf source) (parsed config source).root).1
    source.path (parsed config source).root
  unfold passes at hr
  rw [hread] at hr
  obtain rfl := eq_of_readTypes hr
  exact ⟨m, m', hscan, hr⟩

/-- The types of a new file are declared, and then their members are recorded and their code is
read. -/
theorem readSteps_passes (hs : opened.Sound)
    (hr : passes config opened source = (.ok declared, s)) :
    ∃ found m m' n n', Scanning ⟨opened.store.graph.units.nextId, opened.fileOf source⟩
        (Header.ofTree (opened.fileOf source) (parsed config source).root).1
        (parsed config source).root (opened.initial (opened.fileOf source) source.path
          (parsed config source)) declared m m' ∧
      readTypes config.recordAccesses ⟨opened.store.graph.units.nextId, opened.fileOf source⟩
        declared m' = (.ok declared, s) ∧
      (∀ type ∈ declared.types, ReferenceSite.Owns m' type.id) ∧
      declared.ReadSteps ⟨opened.store.graph.units.nextId, opened.fileOf source⟩
        config.recordAccesses found m' n n' s := by
  obtain ⟨m, m', hscan, hread⟩ := read_passes hs hr
  obtain ⟨reports, -, haccounted⟩ := hscan.reported
  have howns : ∀ type ∈ declared.types, ReferenceSite.Owns m' type.id := by
    intro type hm
    obtain ⟨x, hx, -⟩ := haccounted.complete type hm
    exact ⟨x, hx⟩
  obtain ⟨found, n, n', hsteps⟩ := readSteps_readTypes howns hread
  exact ⟨found, m, m', n, n', hscan, hread, howns, hsteps⟩

/-- When the types of a new file are declared, they have no members yet. -/
theorem memberless_scanning (hs : opened.Sound) (ht : opened.Tidy) {m m' : ScanState}
    (hscan : Scanning ⟨opened.store.graph.units.nextId, opened.fileOf source⟩
      (Header.ofTree (opened.fileOf source) (parsed config source).root).1
      (parsed config source).root (opened.initial (opened.fileOf source) source.path
        (parsed config source)) declared m m') :
    Declarations.ReadInto.Memberless declared m'.store.graph := by
  have hs' : (opened.seeing source.path).Sound := hs
  have ht' : (opened.seeing source.path).Tidy := ⟨ht.graph, ht.borrowed⟩
  obtain ⟨reports, -, haccounted⟩ := hscan.reported
  intro type hm
  obtain ⟨x, hx, -, -, hc⟩ := haccounted.complete type hm
  have hunread := unread_scanning hs' ht' hscan hx hc
  unfold TypeNode.Unread TypeNode.references at hunread
  simp only [Prod.mk.injEq] at hunread
  exact ⟨x, hx, hunread.2.2.1, hunread.2.2.2.1⟩

/-- The contents of every new file come in. -/
theorem contents_passes (hs : opened.Sound) (ht : opened.Tidy)
    (hr : passes config opened source = (.ok declared, s)) :
    ∃ found before, opened.Contents config source declared found before s := by
  have hs' : (opened.seeing source.path).Sound := hs
  have hinitial := initial_sound (opened.fileOf source) source.path (parsed config source) hs'
  obtain ⟨found, m, m', _, _, hscan, hr, -, hsteps⟩ := readSteps_passes hs hr
  have he := Declarations.enrolled_declare hinitial hscan.declare
  obtain ⟨hplaces, hplaced⟩ := Declarations.placed_declare hinitial hscan.declare
  obtain ⟨reports, hreports, haccounted⟩ := hscan.reported
  have htells : Keeps ScanState.Tells (readTypes config.recordAccesses
    ⟨opened.store.graph.units.nextId, opened.fileOf source⟩ declared) := inferInstance
  have hpersists : Keeps (ScanState.OnGraph Graph.Persists) (readTypes config.recordAccesses
    ⟨opened.store.graph.units.nextId, opened.fileOf source⟩ declared) := inferInstance
  have htells := htells.of_run hr
  have hpersists := hpersists.of_run hr
  refine ⟨found, m'.store.graph, hsteps.readInto, he.distinct, ?_,
    memberless_scanning hs ht hscan, ?_, ?_, reports, haccounted.mono hpersists,
    fun report hm => ?_⟩
  · intro access hm
    rw [hscan.accesses, hplaces.accesses] at hm
    rw [hscan.functions, hplaces.functions]
    exact ht.graph.usesKnown access hm
  · intro type hm
    obtain ⟨x, hx, hrest⟩ := hplaced type hm
    exact ⟨x, by rw [hscan.types, hx], hrest⟩
  · intro type hm id hid
    refine (haccounted.outer_mem type hm id hid).resolve_right ?_
    rintro ⟨around, ha, -⟩
    cases ha
  · refine htells.subset ?_
    rw [hreports]
    exact List.mem_append_right _ hm

namespace Contents

variable {found : List TypeMembers} {before : Graph}

/-- What the graph says of a declared type in the end. -/
theorem node (h : opened.Contents config source declared found before s) :
    ∀ type ∈ declared.types, ∃ x, s.store.graph.types.get? type.id = some x ∧
      x.isComplete = true ∧ x.name = type.name ∧ x.declaringType = type.outer.head? ∧
      (x.anonymousIndex = if type.site.isAnonymous then type.site.number? else none) ∧
      x.span = some (.between type.node.line type.node.lastLine) := by
  intro type hm
  obtain ⟨x, hx, -, hd, hi, hs⟩ := h.placed type hm
  obtain ⟨y, hy, -, hdy, hiy, -, -, hsy⟩ := h.into.takesIn.type hx
  obtain ⟨reports, haccounted, -⟩ := h.accounted
  obtain ⟨z, hz, hn, -, hc⟩ := haccounted.complete type hm
  cases hy.symm.trans hz
  exact ⟨y, hy, TypeNode.isComplete_eq_true.2 ⟨_, hc⟩, hn, hdy.trans hd, hiy.trans hi,
    hsy.trans hs⟩

/-- The types of a file are declared at the places of its tree where types are declared. -/
theorem layout (h : opened.Contents config source declared found before s) :
    ∃ laid placed refused, Site.Layout (parsed config source).root
      (Header.ofTree (opened.fileOf source) (parsed config source).root).1.package
      (opened.fileOf source) declared.types s.diagnostics laid placed refused := by
  obtain ⟨reports, haccounted, hreports⟩ := h.accounted
  obtain ⟨laid, hlaid, hperm⟩ := Site.laid_ofTree
    (shaped_root source.text (config.parseOptions source.path))
    (kind_root source.text (config.parseOptions source.path))
  obtain ⟨placed, refused, hplaced, rfl, ha⟩ := haccounted.assigned hlaid
  exact ⟨laid, placed, refused, hlaid, hperm, hplaced,
    fun pair hm => hreports pair.1 (List.mem_map.2 ⟨pair, hm, rfl⟩), ha⟩

/-- The declarations of a file have the right shape. -/
theorem shaped (h : opened.Contents config source declared found before s) :
    ∀ type ∈ declared.types, type.site.Shaped := by
  obtain ⟨laid, placed, refused, hlayout⟩ := h.layout
  intro type hm
  rw [← hlayout.types] at hm
  obtain ⟨pair, hp, rfl⟩ := List.mem_map.1 hm
  exact (hlayout.sites.describes _ (hlayout.assigned.site pair hp)).shaped
    (shaped_root source.text (config.parseOptions source.path))

/-- The fields of the types around a type, and of the type itself, are known. -/
theorem fields_known (h : opened.Contents config source declared found before s)
    {type : DeclaredType} (ht : type ∈ declared.types) : ∀ owner ∈ type.id :: type.outer,
      ∃ x, s.store.graph.types.get? owner = some x ∧ x.isComplete = true ∧
        ∀ field ∈ x.fields, ∃ y, s.store.graph.fields.get? field = some y := by
  have hall : ∀ other ∈ declared.types, ∃ x, s.store.graph.types.get? other.id = some x ∧
      x.isComplete = true ∧ ∀ field ∈ x.fields, ∃ y, s.store.graph.fields.get? field = some y := by
    intro other ho
    obtain ⟨x, hx, hc, -⟩ := h.node other ho
    obtain ⟨y, hy, hfields⟩ := h.into.fields_known h.distinct h.memberless ho
    cases hx.symm.trans hy
    exact ⟨x, hx, hc, hfields⟩
  refine List.forall_mem_cons.2 ⟨hall type ht, fun owner hm => ?_⟩
  obtain ⟨other, ho, rfl⟩ := List.mem_map.1 (h.outer type ht owner hm)
  exact hall other ho

/-- How the functions of the types of a file use fields is counted. -/
theorem usesCounted (h : opened.Contents config source declared found before s) :
    ∀ type ∈ declared.types, ∃ x, s.store.graph.types.get? type.id = some x ∧
      List.Forall₂ (type.UsesCounted config.recordAccesses s.store.graph) x.functions
        type.functionNodes := fun type hm =>
  h.into.usesCounted h.distinct h.memberless h.usesKnown hm (h.outer type hm) (h.shaped type hm).node

end Contents

end OpenProject

end JavaGraph
