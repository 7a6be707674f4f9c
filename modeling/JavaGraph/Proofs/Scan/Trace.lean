import JavaGraph.Proofs.Scan.Resolving
/-!
# How the types of a file are declared

The sites of a file are declared one after the other; some are left out. Whatever they are, each of
the declared types is a new one, and nothing is read yet when all of them are declared.
-/

namespace JavaGraph

open JavaGraph.Action
open JavaGraph.Graph (Enrols)

namespace Site

/-- The types that sites have declared between two states, in order. -/
inductive Declared (source : SourceUnit) : ScanState → List DeclaredType → ScanState → Prop where
  | nothing (s : ScanState) : Declared source s [] s
  | malformed (s : ScanState) (diagnostic : Diagnostic) : Declared source s [] (s.saying diagnostic)
  | site {site : Site} {outer type : Option DeclaredType} {name : QualifiedName} {s t : ScanState} :
      site.Numbered → site.declareAs source outer name s = (.ok type, t) →
      Declared source s type.toList t
  | append {s m t : ScanState} {as bs : List DeclaredType} :
      Declared source s as m → Declared source m bs t → Declared source s (as ++ bs) t

variable {source : SourceUnit} {package : Option String}

/-- The type of a site. -/
private theorem declared_of_declare {site : Site} {outer type : Option DeclaredType}
    {s t : ScanState} (hn : site.Numbered)
    (h : site.declare source package outer s = (.ok type, t)) :
    Declared source s type.toList t := by
  unfold Site.declare at h
  cases hq : site.qualifiedName package outer with
  | error e =>
    rw [hq] at h
    obtain ⟨_, _, hr, hp⟩ := ok_of_bind h
    cases hr
    cases hp
    exact .malformed ..
  | ok name =>
    rw [hq] at h
    exact .site hn h

mutual

/-- The type of a site and those within it. -/
private theorem declared_of_declareTree : ∀ (site : Site) {outer : Option DeclaredType}
    {types : List DeclaredType} {s t : ScanState}, site.Numbered →
    declareTree source package outer site s = (.ok types, t) → Declared source s types t
  | ⟨name?, number?, base?, node, within⟩, outer, types, s, t => by
    intro hn h
    have hwithin : ∀ inner ∈ within, inner.Numbered := by
      cases hn with
      | mk anonymous hwithin => exact hwithin
    unfold declareTree at h
    obtain ⟨type, m, hr, h⟩ := ok_of_bind h
    have hhere := declared_of_declare hn hr
    cases type with
    | none =>
      cases h
      exact hhere
    | some type =>
      obtain ⟨rest, _, hr', hp⟩ := ok_of_bind h
      cases hp
      exact .append hhere (declared_of_declareAll within hwithin hr')

/-- The types of sites and those within them. -/
theorem declared_of_declareAll : ∀ (sites : List Site) {outer : Option DeclaredType}
    {types : List DeclaredType} {s t : ScanState}, (∀ site ∈ sites, site.Numbered) →
    declareAll source package outer sites s = (.ok types, t) → Declared source s types t
  | [], outer, types, s, t => by
    intro _ h
    unfold declareAll at h
    cases h
    exact .nothing s
  | site :: rest, outer, types, s, t => by
    intro hn h
    unfold declareAll at h
    obtain ⟨here, m, hr, h⟩ := ok_of_bind h
    obtain ⟨others, _, hr', hp⟩ := ok_of_bind h
    cases hp
    exact .append (declared_of_declareTree site (hn site (List.mem_cons_self ..)) hr)
      (declared_of_declareAll rest (fun inner hi => hn inner (List.mem_cons_of_mem _ hi)) hr')

end

/-! ### What is declared is new -/

/-- Types are declared by a unit, each for the first time, and nothing is read. -/
structure Enrolled (unit : UnitId) (s : ScanState) (types : List DeclaredType) (t : ScanState) :
    Prop where
  sound : t.Sound unit
  dependencies : t.dependencies = s.dependencies
  enrols : Enrols unit s.store.graph t.store.graph
  numbered : ∀ type ∈ types, type.site.Numbered
  complete : ∀ type ∈ types, ∃ y, t.store.graph.types.get? type.id = some y ∧ y.isComplete = true
  new : ∀ type ∈ types, ∀ {x}, s.store.graph.types.get? type.id = some x → x.isComplete = false
  distinct : (types.map (·.id)).Nodup

namespace Enrolled

variable {unit : UnitId} {s m t : ScanState} {as bs : List DeclaredType}

/-- No type is declared. -/
private theorem nil (hs : t.Sound unit) (hd : t.dependencies = s.dependencies)
    (hg : t.store.graph = s.store.graph) : Enrolled unit s [] t where
  sound := hs
  dependencies := hd
  enrols := by
    rw [hg]
    exact .refl ..
  numbered _ hm := by cases hm
  complete _ hm := by cases hm
  new _ hm := by cases hm
  distinct := List.nodup_nil

/-- One group of types is declared after another. -/
private theorem append (h : Enrolled unit s as m) (h' : Enrolled unit m bs t) :
    Enrolled unit s (as ++ bs) t where
  sound := h'.sound
  dependencies := h'.dependencies.trans h.dependencies
  enrols := h.enrols.trans h'.enrols
  numbered type hm := (List.mem_append.1 hm).elim (h.numbered type) (h'.numbered type)
  complete type hm := by
    rcases List.mem_append.1 hm with hm | hm
    · obtain ⟨y, hy, hc⟩ := h.complete type hm
      obtain ⟨z, hz, hc'⟩ := h'.enrols.forth hy
      exact ⟨z, hz, hc' hc⟩
    · exact h'.complete type hm
  new type hm := by
    intro x hx
    rcases List.mem_append.1 hm with hm | hm
    · exact h.new type hm hx
    · obtain ⟨y, hy, hc⟩ := h.enrols.forth hx
      have hi := h'.new type hm hy
      cases hx' : x.isComplete with
      | false => rfl
      | true =>
        rw [hc hx'] at hi
        cases hi
  distinct := by
    rw [List.map_append, List.nodup_append]
    refine ⟨h.distinct, h'.distinct, ?_⟩
    intro id hid other hother he
    obtain ⟨a, ha, rfl⟩ := List.mem_map.1 hid
    obtain ⟨b, hb, rfl⟩ := List.mem_map.1 hother
    obtain ⟨y, hy, hc⟩ := h.complete a ha
    rw [he] at hy
    rw [h'.new b hb hy] at hc
    cases hc

end Enrolled

/-- A declared type is listed in the type around it; nothing else changes. -/
private theorem listWithin_run {outer : Option DeclaredType} {id : TypeId} {s t : ScanState}
    (h : listWithin outer id s = (.ok (), t)) (unit : UnitId) :
    t.dependencies = s.dependencies ∧ Enrols unit s.store.graph t.store.graph := by
  cases outer with
  | none =>
    cases h
    exact ⟨rfl, .refl ..⟩
  | some outer =>
    unfold listWithin at h
    cases hr : Graph.updateType outer.id (fun type =>
        { type with innerTypes := type.innerTypes ++ [id] }) s.store.graph with
    | mk result after =>
      simp only [ScanState.onGraph_run hr] at h
      cases h
      rw [Graph.eq_of_updateType hr]
      exact ⟨rfl, .modify _ _ _ (fun _ => rfl) fun _ => rfl⟩

variable {site : Site} {outer type : Option DeclaredType} {name : QualifiedName} {s t : ScanState}

/-- A declaration of a site leaves it out, or declares a new type. -/
private theorem enrolled_of_declareAs (hn : site.Numbered) (hs : s.Sound source.unit)
    (h : site.declareAs source outer name s = (.ok type, t)) :
    Enrolled source.unit s type.toList t := by
  have hk : Keeps (ScanState.PassesOn source.unit) (site.declareAs source outer name) :=
    inferInstance
  have hsound := hk.of_run h hs
  rcases Twins.inScope_declare_cases hs rfl name with ⟨existing, -, hrun⟩ | ⟨id, middle, ha, hrun⟩
  · rw [declareAs_duplicate hrun] at h
    cases h
    exact .nil hsound rfl rfl
  · rw [declareAs_new hrun (Twins.updated_of_awaits _ ha rfl site outer)] at h
    obtain ⟨_, m, hl, hp⟩ := ok_of_bind h
    cases hp
    obtain ⟨hdependencies, hlisted⟩ := listWithin_run hl source.unit
    obtain ⟨⟨x, hx, -, -, hi⟩, hm⟩ := ha
    have hplaced : Enrols source.unit s.store.graph middle := by
      rcases hm with rfl | ⟨rfl, -, -⟩
      · exact .refl ..
      · exact .withType ..
    have hdeclared : Enrols source.unit middle
        (middle.withDeclaration id source.unit s.scope.artifact?) := .declared hx hi
    have hupdated : Enrols source.unit (middle.withDeclaration id source.unit s.scope.artifact?)
        (Twins.declaredGraph site outer middle id source.unit s.scope.artifact?) :=
      .modify _ _ _ (fun _ => rfl) fun _ => rfl
    have hself : ∃ y, (middle.withDeclaration id source.unit s.scope.artifact?).types.get? id =
        some y ∧ y.isComplete = true := by
      rw [Graph.get?_types_withDeclaration, if_pos rfl, hx]
      exact ⟨_, rfl, rfl⟩
    obtain ⟨y, hy, hc⟩ := hself
    obtain ⟨z, hz, hcz⟩ := (hupdated.trans hlisted).forth hy
    refine ⟨hsound, hdependencies, hplaced.trans (hdeclared.trans (hupdated.trans hlisted)), ?_, ?_,
      ?_, List.nodup_singleton _⟩
    · intro type hm
      rw [List.mem_singleton.1 hm]
      exact hn
    · intro type hm
      rw [List.mem_singleton.1 hm]
      exact ⟨z, hz, hcz hc⟩
    · intro type ht u hu
      rw [List.mem_singleton.1 ht] at hu
      obtain ⟨v, hv, hcv⟩ := hplaced.forth hu
      obtain rfl : x = v := Option.some.inj (hx.symm.trans hv)
      cases hu' : u.isComplete with
      | false => rfl
      | true =>
        rw [hcv hu'] at hi
        cases hi

/-- Whatever the sites are, the declared types are new. -/
theorem Declared.enrolled {types : List DeclaredType} (h : Declared source s types t)
    (hs : s.Sound source.unit) : Enrolled source.unit s types t := by
  induction h with
  | nothing s => exact .nil hs rfl rfl
  | malformed s diagnostic => exact .nil hs rfl rfl
  | site hn h => exact enrolled_of_declareAs hn hs h
  | append _ _ ih ih' => exact (ih hs).append (ih' (ih hs).sound)

end Site

/-- Whatever a file declares is new, and nothing is read yet. -/
theorem Declarations.enrolled_declare {source : SourceUnit} {header : Header} {root : Tree}
    {declared : Declarations} {s t : ScanState} (hs : s.Sound source.unit)
    (h : Declarations.declare source header root s = (.ok declared, t)) :
    Site.Enrolled source.unit s declared.types t := by
  unfold Declarations.declare at h
  obtain ⟨types, _, hr, hp⟩ := ok_of_bind h
  cases hp
  exact (Site.declared_of_declareAll _ (fun _ => Site.numbered_ofTree) hr).enrolled hs

end JavaGraph

/-!
## Where declared types are placed

A type gets its place when it is declared: the type around it, its number if it is an anonymous
class, and its lines. Declarations that follow leave that as it is, and no code comes in before all types of a file
are declared.
-/

namespace JavaGraph

open JavaGraph.Action

/-! ### Graphs in which types are declared -/

namespace Graph

/-- Types are declared. Those that were declared before keep their places, and there is as much
code as before. -/
structure Places (before after : Graph) : Prop where
  fields : after.fields = before.fields
  functions : after.functions = before.functions
  accesses : after.accesses = before.accesses
  type : ∀ {id x}, before.types.get? id = some x → x.isComplete = true →
    ∃ y, after.types.get? id = some y ∧ y.isComplete = true ∧
      y.declaringType = x.declaringType ∧ y.anonymousIndex = x.anonymousIndex ∧ y.span = x.span

variable {graph middle after : Graph}

/-- Nothing is declared. -/
theorem Places.refl (graph : Graph) : Places graph graph :=
  ⟨rfl, rfl, rfl, fun hx hc => ⟨_, hx, hc, rfl, rfl, rfl⟩⟩

/-- More and more is declared. -/
theorem Places.trans (h : Places graph middle) (h' : Places middle after) : Places graph after where
  fields := h'.fields.trans h.fields
  functions := h'.functions.trans h.functions
  accesses := h'.accesses.trans h.accesses
  type hx hc := by
    obtain ⟨y, hy, hcy, hd, hi, hs⟩ := h.type hx hc
    obtain ⟨z, hz, hcz, hd', hi', hs'⟩ := h'.type hy hcy
    exact ⟨z, hz, hcz, hd'.trans hd, hi'.trans hi, hs'.trans hs⟩

/-- A type is changed that keeps its place. -/
theorem places_modify (graph : Graph) (id : TypeId) {f : TypeNode → TypeNode}
    (hs : ∀ x, (f x).state = x.state) (hd : ∀ x, (f x).declaringType = x.declaringType)
    (hi : ∀ x, (f x).anonymousIndex = x.anonymousIndex) (hl : ∀ x, (f x).span = x.span) :
    Places graph { graph with types := graph.types.modify id f } := by
  refine ⟨rfl, rfl, rfl, fun {k x} hx hc => ?_⟩
  simp only
  rw [Arena.get?_modify]
  split
  · rw [hx]
    refine ⟨f x, rfl, ?_, hd x, hi x, hl x⟩
    unfold TypeNode.isComplete at hc ⊢
    rw [hs, hc]
  · exact ⟨x, hx, hc, rfl, rfl, rfl⟩

/-- A placeholder is declared, and put in its place. -/
theorem places_declaredGraph {site : Site} {outer : Option DeclaredType} {id : TypeId}
    {x : TypeNode} {unit : UnitId} {home : Universe} (hx : graph.types.get? id = some x)
    (hi : x.isComplete = false) : Places graph (Twins.declaredGraph site outer graph id unit home) := by
  refine ⟨rfl, rfl, rfl, fun {k y} hy hc => ?_⟩
  have hne : k ≠ id := by
    rintro rfl
    cases hx.symm.trans hy
    rw [hi] at hc
    cases hc
  unfold Twins.declaredGraph
  simp only
  rw [Arena.get?_modify, if_neg hne, get?_types_withDeclaration, if_neg hne]
  exact ⟨y, hy, hc, rfl, rfl, rfl⟩

end Graph

namespace DeclaredType

/-- A declared type is in its place: within the type around it, numbered if it is an anonymous class,
and on the lines of its node. -/
def PlacedIn (graph : Graph) (type : DeclaredType) : Prop :=
  ∃ x, graph.types.get? type.id = some x ∧ x.isComplete = true ∧
    x.declaringType = type.outer.head? ∧
    (x.anonymousIndex = if type.site.isAnonymous then type.site.number? else none) ∧
    x.span = some (.between type.node.line type.node.lastLine)

/-- Types stay in their places. -/
theorem PlacedIn.mono {graph after : Graph} {type : DeclaredType} (h : type.PlacedIn graph)
    (hp : Graph.Places graph after) : type.PlacedIn after := by
  obtain ⟨x, hx, hc, hd, hi, hs⟩ := h
  obtain ⟨y, hy, hcy, hdy, hiy, hsy⟩ := hp.type hx hc
  exact ⟨y, hy, hcy, hdy.trans hd, hiy.trans hi, hsy.trans hs⟩

end DeclaredType

/-! ### Declarations -/

namespace Site

variable {source : SourceUnit} {outer type : Option DeclaredType} {site : Site}
  {name : QualifiedName} {s t : ScanState}

/-- To be listed in the type around it changes the place of no type. -/
private theorem places_listWithin {id : TypeId} (h : listWithin outer id s = (.ok (), t)) :
    Graph.Places s.store.graph t.store.graph := by
  cases outer with
  | none =>
    cases h
    exact .refl _
  | some outer =>
    unfold listWithin at h
    cases hr : Graph.updateType outer.id (fun type =>
        { type with innerTypes := type.innerTypes ++ [id] }) s.store.graph with
    | mk result after =>
      simp only [ScanState.onGraph_run hr] at h
      cases h
      rw [Graph.eq_of_updateType hr]
      exact Graph.places_modify _ _ (fun _ => rfl) (fun _ => rfl) (fun _ => rfl) fun _ => rfl

/-- A declaration of a site leaves it out, or puts its type in its place. -/
private theorem placed_of_declareAs (hs : s.Sound source.unit)
    (h : site.declareAs source outer name s = (.ok type, t)) :
    Graph.Places s.store.graph t.store.graph ∧
      ∀ declared ∈ type.toList, declared.PlacedIn t.store.graph := by
  rcases Twins.inScope_declare_cases hs rfl name with ⟨existing, -, hrun⟩ | ⟨id, middle, ha, hrun⟩
  · rw [declareAs_duplicate hrun] at h
    cases h
    exact ⟨.refl _, List.forall_mem_nil _⟩
  · rw [declareAs_new hrun (Twins.updated_of_awaits _ ha rfl site outer)] at h
    obtain ⟨_, m, hl, hp⟩ := ok_of_bind h
    cases hp
    have hlisted := places_listWithin hl
    obtain ⟨⟨x, hx, -, -, hi⟩, hm⟩ := ha
    have hmiddle : Graph.Places s.store.graph middle := by
      rcases hm with rfl | ⟨rfl, -, -⟩
      · exact .refl _
      · exact ⟨rfl, rfl, rfl, fun hy hc => ⟨_, Graph.get?_push_of_get? _ hy, hc, rfl, rfl, rfl⟩⟩
    have hdeclared : Graph.Places middle
        (Twins.declaredGraph site outer middle id source.unit s.scope.artifact?) :=
      Graph.places_declaredGraph hx hi
    have hplaced : (site.declaredType outer name id).PlacedIn
        (Twins.declaredGraph site outer middle id source.unit s.scope.artifact?) := by
      have hself : (Twins.declaredGraph site outer middle id source.unit
          s.scope.artifact?).types.get? id = some (site.declaredNode outer
            { x with state := .complete source.unit, artifact := s.scope.artifact? }) := by
        unfold Twins.declaredGraph
        simp only
        rw [Arena.get?_modify, if_pos rfl, Graph.get?_types_withDeclaration, if_pos rfl, hx]
        rfl
      refine ⟨_, hself, rfl, ?_, rfl, rfl⟩
      cases outer <;> rfl
    exact ⟨hmiddle.trans (hdeclared.trans hlisted), List.forall_mem_singleton.2
      (hplaced.mono hlisted)⟩

/-- Whatever the sites are, the declared types are in their places. -/
private theorem Declared.placed {types : List DeclaredType} (h : Declared source s types t)
    (hs : s.Sound source.unit) : Graph.Places s.store.graph t.store.graph ∧
      ∀ declared ∈ types, declared.PlacedIn t.store.graph := by
  induction h with
  | nothing s => exact ⟨.refl _, List.forall_mem_nil _⟩
  | malformed s diagnostic => exact ⟨.refl _, List.forall_mem_nil _⟩
  | site hn h => exact placed_of_declareAs hs h
  | append hfirst _ ih ih' =>
    obtain ⟨hp, hall⟩ := ih hs
    obtain ⟨hp', hall'⟩ := ih' (hfirst.enrolled hs).sound
    exact ⟨hp.trans hp', List.forall_mem_append.2 ⟨fun one ho => (hall one ho).mono hp', hall'⟩⟩

end Site

/-- The types that a file declares are in their places, and no code has come in. -/
theorem Declarations.placed_declare {source : SourceUnit} {header : Header} {root : Tree}
    {declared : Declarations} {s t : ScanState} (hs : s.Sound source.unit)
    (h : Declarations.declare source header root s = (.ok declared, t)) :
    Graph.Places s.store.graph t.store.graph ∧
      ∀ type ∈ declared.types, type.PlacedIn t.store.graph := by
  unfold Declarations.declare at h
  obtain ⟨types, _, hr, hp⟩ := ok_of_bind h
  cases hp
  exact (Site.declared_of_declareAll _ (fun _ => Site.numbered_ofTree) hr).placed hs

end JavaGraph
