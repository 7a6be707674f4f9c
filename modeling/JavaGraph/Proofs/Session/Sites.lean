import JavaGraph.Proofs.Scan.Contents
import JavaGraph.Proofs.Session.Settled
/-!
# Just the types that are written are declared

A scan declares a type for every node of a file that declares one, if its name allows that, and no
other types. Which type is around it, its name and its number can be read off the place of the node.
-/

namespace JavaGraph

open JavaGraph.Tree

/-- A diagnostic refuses the type that a node declares: its name is malformed, or declared
already. -/
def Tree.Refused (node : Tree) (file : FileId) (diagnostic : Diagnostic) : Prop :=
  (∃ name existing, diagnostic = .atNode file node.typeNode (.duplicateDeclaration name existing)) ∨
    ∃ text, diagnostic = match node.typeToken? with
      | some token => .atToken file token (.malformedName text)
      | none => .atNode file node.typeNode (.malformedName text)

/-- What a report and a graph say of the types of a file: `typeAt` gives the type that is declared at
a place, `remarkAt` the remark that refuses it, and `number` the number of an anonymous or a local
class. -/
structure Tree.DeclaresExactly (root : Tree) (report : UnitReport) (graph : Graph)
    (typeAt : Place → Option TypeId) (remarkAt : Place → Option Diagnostic)
    (number : Place → Nat) : Prop where
  /-- Every node that declares a type is declared, unless it or one around it is refused; nothing
  else is. -/
  declared : ∀ place, (typeAt place).isSome = true ↔
    (root.at? place).any isSite = true ∧ ∀ around, root.Encloses around place →
      remarkAt around = none
  once : ∀ {a b id}, typeAt a = some id → typeAt b = some id → a = b
  nodup : report.declaredTypes.Nodup
  listed : ∀ id, id ∈ report.declaredTypes ↔ ∃ place, typeAt place = some id
  remarks : ∀ {place diagnostic}, remarkAt place = some diagnostic →
    diagnostic ∈ report.diagnostics ∧ ∃ node, root.at? place = some node ∧ node.isSite = true ∧
      node.Refused report.file diagnostic
  /-- The declaring type is the one whose body is the innermost one around the place. -/
  type : ∀ {place id}, typeAt place = some id → ∃ x, graph.types.get? id = some x ∧
    x.isComplete = true ∧ x.declaringType = (root.owner? place).bind typeAt ∧
    x.anonymousIndex = if (root.typeName? place).isNone then some (number place) else none
  name : ∀ {place id owner}, typeAt place = some id → root.owner? place = some owner →
    ∃ outer x y, typeAt owner = some outer ∧ graph.types.get? id = some x ∧
      graph.types.get? outer = some y ∧
      x.name.text = y.name.text ++ "$" ++ root.labelAt number place
  /-- The anonymous classes of an owner, and its local classes of a name, have the numbers from one
  on, each once. -/
  numbers : ∀ owner name, ((root.numberedIn owner name).map number).Perm
    (List.range' 1 (root.numberedIn owner name).length)

/-- What is said of a site is said of the node that it describes. -/
private theorem Site.Remarked.refused {root node : Tree} {site : Site} {place : Place}
    {file : FileId} {diagnostic : Diagnostic} (h : site.Remarked file diagnostic)
    (hd : site.Describes root place) (hn : root.at? place = some node) :
    node.isSite = true ∧ node.Refused file diagnostic := by
  obtain ⟨other, ho, hsite, hname, hnode, -⟩ := hd.node
  cases hn.symm.trans ho
  refine ⟨hsite, ?_⟩
  rcases h with rfl | ⟨name, existing, rfl⟩
  · right
    unfold Site.malformed
    rw [hname, hnode]
    cases node.typeToken? with
    | some token => exact ⟨token.text, rfl⟩
    | none => exact ⟨site.label, rfl⟩
  · left
    exact ⟨name, existing, by rw [hnode]⟩

namespace Site.Layout

variable {root : Tree} {package : Option String} {file : FileId} {types : List DeclaredType}
  {diagnostics : List Diagnostic} {laid : List (Site × Place)}
  {placed : List (DeclaredType × Place)} {refused : List (Diagnostic × Place)} {place : Place}
  {type : DeclaredType} {id : TypeId}

/-- The type that is declared at a place. -/
private def typeAt (placed : List (DeclaredType × Place)) (place : Place) : Option TypeId :=
  (Place.lookup placed place).map (·.id)

variable (h : Layout root package file types diagnostics laid placed refused)
include h

/-- No node is laid out twice. -/
private theorem nodup : (laid.map (·.2)).Nodup :=
  h.perm.nodup_iff.2 (nodup_placesOf root rfl)

/-- Just the nodes that declare types are laid out. -/
private theorem mem_places_iff :
    place ∈ laid.map (·.2) ↔ (root.at? place).any isSite = true := by
  rw [h.perm.mem_iff, mem_placesOf_root, Option.any_eq_true]

/-- The type at a place is one that is placed there. -/
private theorem typeAt_eq_some_iff :
    typeAt placed place = some id ↔ ∃ type, (type, place) ∈ placed ∧ type.id = id := by
  unfold typeAt
  rw [Option.map_eq_some_iff]
  simp only [Place.lookup_eq_some_iff (h.assigned.nodup h.nodup)]

/-- What is placed is declared. -/
private theorem mem_types (hm : (type, place) ∈ placed) : type ∈ types := by
  rw [← h.types]
  exact List.mem_map.2 ⟨_, hm, rfl⟩

/-- A place has a type unless it is inside of one that has a remark. -/
private theorem typeAt_isSome_iff : (typeAt placed place).isSome = true ↔
    (root.at? place).any isSite = true ∧ ∀ around, root.Encloses around place →
      Place.lookup refused around = none := by
  unfold typeAt
  simp only [Option.isSome_map, Place.lookup_eq_none_iff]
  rw [Option.isSome_iff_ne_none, ne_eq, Place.lookup_eq_none_iff, not_not,
    h.assigned.mem_iff h.nodup, h.mem_places_iff]
  exact and_congr_right' ⟨fun hall around he hm => hall around hm he,
    fun hall around hm he => hall around he hm⟩

/-- Types are at one place each if they are distinct. -/
private theorem typeAt_inj (hd : (types.map (·.id)).Nodup) {a b : Place}
    (ha : typeAt placed a = some id) (hb : typeAt placed b = some id) : a = b := by
  obtain ⟨type, hma, hta⟩ := h.typeAt_eq_some_iff.1 ha
  obtain ⟨other, hmb, htb⟩ := h.typeAt_eq_some_iff.1 hb
  rw [← h.types, List.map_map] at hd
  exact (Prod.mk.inj (List.inj_on_of_nodup_map hd hma hmb (hta.trans htb.symm))).2

/-- The declared types are those that places have. -/
private theorem mem_ids_iff : id ∈ types.map (·.id) ↔ ∃ place, typeAt placed place = some id := by
  rw [← h.types, List.map_map, List.mem_map]
  constructor
  · rintro ⟨⟨type, place⟩, hm, rfl⟩
    exact ⟨place, h.typeAt_eq_some_iff.2 ⟨type, hm, rfl⟩⟩
  · rintro ⟨place, hp⟩
    obtain ⟨type, hm, hid⟩ := h.typeAt_eq_some_iff.1 hp
    exact ⟨(type, place), hm, hid⟩

/-- A remark is said, of a node that declares a type. -/
private theorem remark {diagnostic : Diagnostic}
    (hd : Place.lookup refused place = some diagnostic) : diagnostic ∈ diagnostics ∧
      ∃ node, root.at? place = some node ∧ node.isSite = true ∧ node.Refused file diagnostic := by
  have hm := (Place.lookup_eq_some_iff (h.assigned.nodup_refused h.nodup)).1 hd
  obtain ⟨site, hs, hremarked⟩ := h.assigned.remarked _ hm
  have hdescribes := h.sites.describes _ hs
  obtain ⟨node, hn, -⟩ := hdescribes.node
  exact ⟨h.said _ hm, node, hn, hremarked.refused hdescribes hn⟩

/-- The type around a declared type is the one at the place whose body is around it. -/
private theorem head?_outer (hm : (type, place) ∈ placed) :
    type.outer.head? = (root.owner? place).bind (typeAt placed) := by
  rcases h.assigned.around _ hm with ⟨howner, hbelow⟩ | ⟨other, ho, howner, hbelow⟩
  · rw [howner, hbelow.chain]
    rfl
  · rw [howner, hbelow.chain]
    exact (h.typeAt_eq_some_iff.2 ⟨other.1, ho, rfl⟩).symm

/-- The number of an anonymous class is that of its place. -/
private theorem anonymousIndex (hm : (type, place) ∈ placed) :
    (if type.site.isAnonymous then type.site.number? else none) =
      if (root.typeName? place).isNone then some (numberAt laid place) else none := by
  have hdescribes := h.sites.describes _ (h.assigned.site _ hm)
  rw [hdescribes.typeName?, Option.isNone_map, numberAt_eq h.nodup (h.assigned.site _ hm)]
  unfold isAnonymous
  split
  · next hnone =>
    have hsome := hdescribes.number
    rw [hnone, Bool.true_or] at hsome
    obtain ⟨number, hnumber⟩ := Option.isSome_iff_exists.1 hsome
    rw [hnumber]
    rfl
  · rfl

/-- The name of a type within another. -/
private theorem text_name {owner : Place} (hm : (type, place) ∈ placed)
    (howner : root.owner? place = some owner) : ∃ outer, (outer, owner) ∈ placed ∧
      type.name.text = outer.name.text ++ "$" ++ root.labelAt (numberAt laid) place := by
  rcases h.assigned.around _ hm with ⟨hnone, -⟩ | ⟨⟨outer, _⟩, ho, hother, hbelow⟩
  · cases hnone.symm.trans howner
  · cases hother.symm.trans howner
    have hlabel := (h.sites.describes _ (h.assigned.site _ hm)).label_eq h.nodup
      (h.assigned.site _ hm)
    rw [← hlabel]
    exact ⟨outer, ho, QualifiedName.text_of_parse hbelow.name⟩

end Site.Layout

open Site.Layout (typeAt)

namespace OpenProject.Contents

variable {opened : OpenProject} {config : ScanConfig} {source : SourceText}
  {declared : Declarations} {found : List TypeMembers} {before : Graph} {s : ScanState}

/-- The types of a file are declared exactly, in the graph that the three passes leave. -/
theorem declaresExactly (h : opened.Contents config source declared found before s)
    {report : UnitReport} (hreport : report.declaredTypes = declared.types.map (·.id))
    (hfile : report.file = opened.fileOf source) (hdiagnostics : report.diagnostics = s.diagnostics) :
    ∃ typeAt remarkAt number, (parsed config source).root.DeclaresExactly report s.store.graph
      typeAt remarkAt number := by
  obtain ⟨laid, placed, refused, hl⟩ := h.layout
  refine ⟨typeAt placed, Place.lookup refused, Site.numberAt laid, {
    declared := fun place => hl.typeAt_isSome_iff
    once := hl.typeAt_inj h.distinct
    nodup := hreport ▸ h.distinct
    listed := fun id => hreport ▸ hl.mem_ids_iff
    remarks := fun hd => hdiagnostics ▸ hfile ▸ hl.remark hd
    type := ?_
    name := ?_
    numbers := hl.sites.numbers hl.perm hl.nodup fun site => Site.tallied_ofTree }⟩
  · intro place id hid
    obtain ⟨type, hm, rfl⟩ := hl.typeAt_eq_some_iff.1 hid
    obtain ⟨x, hx, hc, -, hdeclaring, hindex, -⟩ := h.node type (hl.mem_types hm)
    exact ⟨x, hx, hc, hdeclaring.trans (hl.head?_outer hm), hindex.trans (hl.anonymousIndex hm)⟩
  · intro place id owner hid howner
    obtain ⟨type, hm, rfl⟩ := hl.typeAt_eq_some_iff.1 hid
    obtain ⟨outer, ho, hname⟩ := hl.text_name hm howner
    obtain ⟨x, hx, -, hnx, -⟩ := h.node type (hl.mem_types hm)
    obtain ⟨y, hy, -, hny, -⟩ := h.node outer (hl.mem_types ho)
    refine ⟨outer.id, x, y, hl.typeAt_eq_some_iff.2 ⟨outer, ho, rfl⟩, hx, hy, ?_⟩
    rw [hnx, hny, hname]

end OpenProject.Contents

namespace Tree.DeclaresExactly

variable {root : Tree} {report : UnitReport} {graph later : Graph}
  {typeAt : Place → Option TypeId} {remarkAt : Place → Option Diagnostic} {number : Place → Nat}

/-- What is declared stays so as long as declared types are preserved. -/
theorem mono (h : root.DeclaresExactly report graph typeAt remarkAt number)
    (hp : Graph.Preserves graph later) :
    root.DeclaresExactly report later typeAt remarkAt number := by
  refine { h with type := fun hid => ?_, name := fun {place id owner} hid howner => ?_ }
  · obtain ⟨x, hx, hc, hrest⟩ := h.type hid
    exact ⟨x, hp.declared hx hc, hc, hrest⟩
  · obtain ⟨outer, x, y, ho, hx, hy, hname⟩ := h.name hid howner
    obtain ⟨x', hx', hc, -⟩ := h.type hid
    obtain ⟨y', hy', hc', -⟩ := h.type ho
    cases hx.symm.trans hx'
    cases hy.symm.trans hy'
    exact ⟨outer, x, y, ho, hp.declared hx hc, hp.declared hy hc', hname⟩

end Tree.DeclaresExactly

namespace Session

/-- After every run, the types of a file are just those that are written in it, in the places where
they are written: each is declared once, unless its name was refused or that of a type around it. -/
theorem declaresExactly_run (before later : List Step) {scope : Scope} {config : ScanConfig}
    {source : SourceText} {report : UnitReport} {after : Session}
    (hnew : (run before).ScansNew scope source)
    (hr : inScope? (OpenProject.scanSource config source.path source.text) (run before) =
      some (.ok report, after)) :
    ∃ typeAt remarkAt number, (OpenProject.parsed config source).root.DeclaresExactly report
      (run (before ++ .scan config source.path source.text :: later)).project.store.graph
      typeAt remarkAt number := by
  obtain ⟨hsound, htidy⟩ := hnew.opened (sound_run before) (tidy_run before)
  have hpreserves := preserves_run (before ++ [.scan config source.path source.text]) later
  rw [hnew.graph_run, List.append_assoc] at hpreserves
  have hscan := OpenProject.scanOne_new config hsound hnew.path
  unfold OpenProject.scanOne at hscan
  unfold inScope? at hr
  simp only [hnew.scopes, hscan] at hr
  cases hpasses : OpenProject.passes config { (run before).project with scope } source with
  | mk result s =>
    rw [hpasses] at hr
    cases result with
    | error e => cases hr
    | ok declared =>
      obtain ⟨found, start, hcontents⟩ := OpenProject.contents_passes hsound htidy hpasses
      have hreport := Except.ok.inj (Prod.mk.inj (Option.some.inj hr)).1
      obtain ⟨typeAt, remarkAt, number, h⟩ := hcontents.declaresExactly
        (congrArg UnitReport.declaredTypes hreport.symm) (congrArg UnitReport.file hreport.symm)
        (congrArg UnitReport.diagnostics hreport.symm)
      refine ⟨typeAt, remarkAt, number, ?_⟩
      unfold passes at hpreserves
      rw [hpasses] at hpreserves
      exact h.mono hpreserves

/-- A file declares a member type and then a second one of the same name, and has local classes and
anonymous ones, one of them in the arguments of another. -/
theorem declaresExactly_nested :
    let before : List Step := [.addArtifact "app" [], .enter (some ⟨0⟩)]
    let source : SourceText := ⟨"A.java", "class A \x7b class M \x7b \x7d " ++
      "class M \x7b class N \x7b \x7d \x7d " ++
      "void f() \x7b class L \x7b \x7d new A(new A() \x7b \x7d) \x7b \x7d; \x7d \x7d " ++
      "enum E \x7b X(1) \x7b \x7d \x7d"⟩
    ∃ scope report after, (run before).ScansNew scope source ∧
      inScope? (OpenProject.scanSource {} source.path source.text) (run before) =
        some (.ok report, after) ∧
      report.declaredTypes.length = 7 ∧ report.diagnostics.length = 1 ∧
      ∃ typeAt remarkAt number, (OpenProject.parsed {} source).root.DeclaresExactly report
        (run (before ++ [.scan {} source.path source.text])).project.store.graph
        typeAt remarkAt number := by
  intro before source
  have hscopes : (run before).scopes.map (·.artifact?) = [some ⟨0⟩] := by decide +kernel
  obtain ⟨scope, hs, hartifact⟩ := List.map_eq_singleton_iff.1 hscopes
  have hn : (run before).project.store.graph.unitAt? source.path scope.artifact? = none := by
    rw [hartifact]
    decide +kernel
  have hreport : (inScope? (OpenProject.scanSource {} source.path source.text) (run before)).any
      (fun result => result.1.toOption.any fun report =>
        report.declaredTypes.length = 7 ∧ report.diagnostics.length = 1) = true := by
    decide +kernel
  obtain ⟨⟨result, after⟩, hr, hany⟩ := (Option.any_eq_true ..).1 hreport
  cases result with
  | error e => cases hany
  | ok report =>
    have hlengths := of_decide_eq_true hany
    exact ⟨scope, report, after, ⟨hs, hn⟩, hr, hlengths.1, hlengths.2,
      declaresExactly_run before [] ⟨hs, hn⟩ hr⟩

end Session

end JavaGraph
