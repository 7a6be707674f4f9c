import JavaGraph.Proofs.Scan.Lifecycle
import JavaGraph.Proofs.Scan.Tandem
import JavaGraph.Proofs.Scan.Twins
/-!
# Two scans of one file

The tandem of two scans of one file in two graphs. What the scans record is the same for all such
tandems. What they depend on is how the two scopes answer: `Twins.Lookup` lists what has to be
shown of that.
-/

namespace JavaGraph

open List (Forall₂)
open JavaGraph.Action
open JavaGraph.Graph (SameType SameUnit Since Recorded)

/-! ### Findings -/

/-- Two findings differ in identifiers only. -/
inductive Finding.Alike (U : UnitId → UnitId → Prop) : Finding → Finding → Prop where
  | alone {finding : Finding} : finding.related = none → Alike U finding finding
  | duplicate (name : String) {a b : UnitId} :
      U a b → Alike U (.duplicateDeclaration name a) (.duplicateDeclaration name b)

/-- Two diagnostics differ in identifiers only. -/
structure Diagnostic.Alike (D : FileId → FileId → Prop) (U : UnitId → UnitId → Prop)
    (a b : Diagnostic) : Prop where
  file : D a.file b.file
  line : a.line = b.line
  column : a.column = b.column
  finding : Finding.Alike U a.finding b.finding

/-- Diagnostics that are alike under weaker relations. -/
theorem Diagnostic.Alike.imp {D D' : FileId → FileId → Prop} {U U' : UnitId → UnitId → Prop}
    (hD : ∀ {a b}, D a b → D' a b) (hU : ∀ {a b}, U a b → U' a b) {a b : Diagnostic}
    (h : Diagnostic.Alike D U a b) : Diagnostic.Alike D' U' a b := by
  refine ⟨hD h.file, h.line, h.column, ?_⟩
  have hf := h.finding
  revert hf
  generalize a.finding = x
  generalize b.finding = y
  intro hf
  cases hf with
  | alone hr => exact .alone hr
  | duplicate name hab => exact .duplicate name (hU hab)

namespace ScanState

/-- The state with another graph. -/
def withGraph (state : ScanState) (graph : Graph) : ScanState :=
  { state with store := { state.store with graph } }

/-- An action on the graph leaves everything else as it is. -/
theorem onGraph_run {α : Type} {action : GraphAction α} {state : ScanState} {after : Graph}
    {result : Except GraphError α} (h : action state.store.graph = (result, after)) :
    onGraph action state = (result, state.withGraph after) := by
  unfold onGraph Store.onGraph within withGraph
  simp only [h]

/-- The scope answers with a type. -/
theorem inScope_ok {operation : Scope → StoreAction (TypeId × Scope)} {state : ScanState}
    {id : TypeId} {scope : Scope} {store : Store}
    (h : operation state.scope state.store = (.ok (id, scope), store)) :
    inScope operation state = (.ok id, { state with store, scope }) := by
  unfold inScope
  rw [h]

/-- The scope fails. -/
theorem inScope_error {operation : Scope → StoreAction (TypeId × Scope)} {state : ScanState}
    {e : GraphError} {store : Store}
    (h : operation state.scope state.store = (.error e, store)) :
    inScope operation state = (.error e, { state with store }) := by
  unfold inScope
  rw [h]

/-- What is recorded in the graph keeps the state sound. -/
theorem Sound.withGraph {unit : UnitId} {state : ScanState} (h : state.Sound unit)
    {α : Type} {action : GraphAction α} (hk : Keeps Graph.SameLedger action) {after : Graph}
    {result : Except GraphError α} (hr : action state.store.graph = (result, after)) :
    (state.withGraph after).Sound unit := by
  have hp : Keeps (PassesOn unit) (onGraph action) := keeps_onGraph action hk
  have hs := hp.keeps state h
  rwa [onGraph_run hr] at hs

end ScanState

namespace Twins

variable (P : Twins)

/-- A type that a unit declares at a site, within others that it declares. -/
structure DeclaredBy (unit : UnitId) (graph : Graph) (type : DeclaredType) : Prop where
  self : ∃ x, graph.types.get? type.id = some x ∧ x.name = type.name ∧ x.state = .complete unit ∧
    (type.site.base?.isSome → x.anonymousIndex.isSome)
  outer : ∀ outer ∈ type.outer, ∃ x, graph.types.get? outer = some x ∧ x.state = .complete unit

/-- Types that both units declare at the same site. -/
structure Declares (g g' : Graph) (a b : DeclaredType) : Prop where
  alike : DeclaredType.Alike (SameType g g') a b
  left : DeclaredBy P.source.unit g a
  right : DeclaredBy P.source'.unit g' b

/-- References from a type that the first unit declares. -/
structure References (g g' : Graph) (a b : TypeId × TypeId) : Prop where
  owned : ∃ x, g.types.get? a.1 = some x ∧ x.state = .complete P.source.unit
  source : SameType g g' a.1 b.1
  target : SameType g g' a.2 b.2

/-- Diagnostics on the files of both units. -/
abbrev Diagnostics (g g' : Graph) : Diagnostic → Diagnostic → Prop :=
  Diagnostic.Alike (fun a b => a = P.source.file ∧ b = P.source'.file) (SameUnit g g')

/-- The states of both scans are sound and differ in identifiers only. -/
structure Paired (s t : ScanState) : Prop where
  sound : s.Sound P.source.unit
  sound' : t.Sound P.source'.unit
  scope : s.scope.artifact? = P.home
  scope' : t.scope.artifact? = P.home
  graphs : P.Alike s.store.graph t.store.graph
  dependencies : Forall₂ (P.References s.store.graph t.store.graph) s.dependencies t.dependencies
  diagnostics : Forall₂ (P.Diagnostics s.store.graph t.store.graph) s.diagnostics t.diagnostics

/-- The tandem of the scans, for scopes related by `Q`. -/
def tandem (Q : ScanState → ScanState → Prop) (admits : QualifiedName → Prop) (mayFail : Prop) :
    Tandem where
  World := Graph × Graph
  le w w' := Since P.source.unit P.home w.1 w'.1 ∧ Since P.source'.unit P.home w.2 w'.2
  Holds w s t := w = (s.store.graph, t.store.graph) ∧ P.Paired s t ∧ Q s t
  source := P.source
  source' := P.source'
  type w := SameType w.1 w.2
  field w _ := P.Fields w.1 w.2
  function w _ := P.Functions w.1 w.2
  owner w := P.Declares w.1 w.2
  named w _ a := P.whole → P.Answers w.1 a
  among _ := True
  recorded _ _ := True
  admits := admits
  mayFail := mayFail

/-- A state in which nothing has changed that a scope looks at. -/
structure SameScope (before after : ScanState) : Prop where
  scope : after.scope = before.scope
  answers : after.store.answers = before.store.answers
  ledger : Graph.SameLedger before.store.graph after.store.graph

/-- A unit declares a name. -/
def DeclaredAs (graph : Graph) (name : QualifiedName) (home : Universe) (unit : UnitId) : Prop :=
  ∃ id x, graph.types.get? id = some x ∧ x.name = name ∧ x.home = home ∧
    x.state = .complete unit

/-- Nothing but the name is recorded of placeholders. -/
def Blank (graph : Graph) : Prop :=
  ∀ {id x}, graph.types.get? id = some x → x.isComplete = false →
    ∃ holder, x = Graph.blank x.name x.home (.incomplete holder)

/-- The scope after a declaration, and the graph. -/
def declaredState (state : ScanState) (unit : UnitId) (name : QualifiedName) (middle : Graph)
    (id : TypeId) : ScanState :=
  { state with
    store := { state.store with graph := middle.withDeclaration id unit state.scope.artifact? }
    scope := state.scope.withDeclared name id }

/-- What has to be shown of two scopes for scans in them to stay in tandem. -/
structure Lookup (Q : ScanState → ScanState → Prop) (admits : QualifiedName → Prop)
    (mayFail : Prop) : Prop where
  ready : P.Ready
  blank : Blank P.start
  blank' : Blank P.start'
  stable : ∀ {s t s' t'}, Q s t → SameScope s s' → SameScope t t' → Q s' t'
  /-- Names stand for types of the same name. -/
  resolve : ∀ {w site site'} name place, (P.tandem Q admits mayFail).Sites w site site' →
    (P.tandem Q admits mayFail).Runs w
      (fun w a b => SameType w.1 w.2 a b ∧ (P.whole → P.Answers w.1 a)) (site.resolve name place)
      (site'.resolve name place)
  /-- If the supertypes of anonymous classes are to be the same, both scans know an answer as the
  same kind of type. -/
  kind : P.whole → ∀ {s t a b x y}, P.Paired s t → Q s t → P.Answers s.store.graph a →
    SameType s.store.graph t.store.graph a b → s.store.graph.types.get? a = some x →
    t.store.graph.types.get? b = some y → x.kind = y.kind
  /-- What is a duplicate for the first unit is one for the second. -/
  duplicate : ∀ {s t name unit}, P.Paired s t → Q s t →
    DeclaredAs s.store.graph name P.home unit →
    ∃ unit', DeclaredAs t.store.graph name P.home unit' ∧
      SameUnit s.store.graph t.store.graph unit unit'
  /-- What is a duplicate for the second unit is one for the first if its name is admitted. -/
  duplicate' : ∀ {s t name unit'}, P.Paired s t → Q s t → admits name →
    DeclaredAs t.store.graph name P.home unit' →
    ∃ unit, DeclaredAs s.store.graph name P.home unit
  declared : ∀ {s t name id id' middle middle'}, P.Paired s t → Q s t →
    Scope.Awaits s.store.graph name P.home middle id →
    Scope.Awaits t.store.graph name P.home middle' id' →
    Q (declaredState s P.source.unit name middle id)
      (declaredState t P.source'.unit name middle' id')

variable {P} {Q : ScanState → ScanState → Prop} {admits : QualifiedName → Prop} {mayFail : Prop}
variable {s t : ScanState}

/-! ### States that stay paired -/

/-- Declared types stay declared. -/
theorem DeclaredBy.mono {unit : UnitId} {home : Universe} {g h : Graph} {type : DeclaredType}
    (hd : DeclaredBy unit g type) (hg : Since unit home g h) : DeclaredBy unit h type := by
  obtain ⟨x, hx, hn, hs, hb⟩ := hd.self
  obtain ⟨y, hy, hsy, hay, -⟩ := hg.own hx hs
  obtain ⟨y', hy', hny, -⟩ := hg.known hx
  rw [hy] at hy'
  cases hy'
  refine ⟨⟨y, hy, hny.trans hn, hsy, by rwa [hay]⟩, fun outer ho => ?_⟩
  obtain ⟨z, hz, hsz⟩ := hd.outer outer ho
  obtain ⟨u, hu, hsu, -⟩ := hg.own hz hsz
  exact ⟨u, hu, hsu⟩

/-- In sound states types are matched one by one. -/
theorem Paired.injective (h : P.Paired s t) :
    Injective (SameType s.store.graph t.store.graph) :=
  Graph.sameType_injective (fun _ _ _ _ hx hy => h.sound.1.consistent.unique hx hy)
    (fun _ _ _ _ hx hy => h.sound'.1.consistent.unique hx hy)

section

variable {g g' h h' : Graph} (hg : Since P.source.unit P.home g h)
  (hg' : Since P.source'.unit P.home g' h')
include hg hg'

/-- Declared types stay declared. -/
theorem Declares.mono {a b : DeclaredType} (hab : P.Declares g g' a b) : P.Declares h h' a b := by
  refine ⟨hab.alike.imp fun ht => SameType.mono hg.extended hg'.extended ht, ?_, ?_⟩
  · exact hab.left.mono hg
  · exact hab.right.mono hg'

/-- References stay related. -/
theorem References.mono {a b : TypeId × TypeId} (hab : P.References g g' a b) :
    P.References h h' a b := by
  refine ⟨?_, hab.source.mono hg.extended hg'.extended, hab.target.mono hg.extended hg'.extended⟩
  obtain ⟨x, hx, hs⟩ := hab.owned
  obtain ⟨y, hy, hsy, -⟩ := hg.own hx hs
  exact ⟨y, hy, hsy⟩

/-- Diagnostics stay related. -/
theorem Diagnostics.mono {a b : Diagnostic} (hab : P.Diagnostics g g' a b) :
    P.Diagnostics h h' a b :=
  Diagnostic.Alike.imp id (fun hu => SameUnit.mono hg.extended hg'.extended hu) hab

end

/-- Actions on both graphs that record something. -/
theorem outcome_record {α β : Type} {V : Graph × Graph → α → β → Prop} {w : Graph × Graph}
    (hl : P.Lookup Q admits mayFail) (hs : (P.tandem Q admits mayFail).Holds w s t)
    {action : GraphAction α} {action' : GraphAction β}
    (hk : Keeps Graph.SameLedger action) (hk' : Keeps Graph.SameLedger action')
    {a : α} {b : β} {h h' : Graph} (hr : action s.store.graph = (.ok a, h))
    (hr' : action' t.store.graph = (.ok b, h'))
    (hg : Since P.source.unit P.home s.store.graph h)
    (hg' : Since P.source'.unit P.home t.store.graph h') (halike : P.Alike h h')
    (hv : V (h, h') a b) :
    (P.tandem Q admits mayFail).Outcome w V (ScanState.onGraph action s)
      (ScanState.onGraph action' t) := by
  obtain ⟨rfl, hp, hq⟩ := hs
  rw [ScanState.onGraph_run hr, ScanState.onGraph_run hr']
  refine ⟨(h, h'), ⟨hg, hg'⟩, ⟨rfl, ?_, ?_⟩, hv⟩
  · exact ⟨hp.sound.withGraph hk hr, hp.sound'.withGraph hk' hr', hp.scope, hp.scope', halike,
      hp.dependencies.imp fun _ _ hd => hd.mono hg hg',
      hp.diagnostics.imp fun _ _ hd => hd.mono hg hg'⟩
  · have hledger := hk.keeps s.store.graph
    have hledger' := hk'.keeps t.store.graph
    rw [hr] at hledger
    rw [hr'] at hledger'
    exact hl.stable hq ⟨rfl, rfl, hledger⟩ ⟨rfl, rfl, hledger'⟩

end Twins

end JavaGraph

/-!
## Reports that differ in identifiers only

Two scans of one file may say the same of it with other identifiers. Files are matched by their
paths.
-/

namespace JavaGraph

open List (Forall₂)

/-- Two files have the same path. -/
def FileSet.SameFile (files other : FileSet) (a b : FileId) : Prop :=
  ∃ path, files.path? a = some path ∧ other.path? b = some path

/-- Known paths keep their identifiers. -/
theorem FileSet.path?_insert {files : FileSet} {file : FileId} {path other : String}
    (h : files.path? file = some path) : (files.insert other).path? file = some path := by
  unfold insert path? at *
  split
  · exact h
  · rw [List.getElem?_append_left (List.getElem?_eq_some_iff.1 h).1]
    exact h

/-- Two reports differ in identifiers only. -/
structure UnitReport.Alike (D : FileId → FileId → Prop) (U : UnitId → UnitId → Prop)
    (R : TypeId → TypeId → Prop) (a b : UnitReport) : Prop where
  unit : U a.unit b.unit
  file : D a.file b.file
  path : a.path = b.path
  rescanned : a.rescanned = b.rescanned
  mayNotCompile : a.mayNotCompile = b.mayNotCompile
  declaredTypes : Forall₂ R a.declaredTypes b.declaredTypes
  diagnostics : Forall₂ (Diagnostic.Alike D U) a.diagnostics b.diagnostics

section

variable {D D' D'' : FileId → FileId → Prop} {U U' U'' : UnitId → UnitId → Prop}
variable {R R' R'' : TypeId → TypeId → Prop}

/-- Reports that are alike under weaker relations. -/
theorem UnitReport.Alike.imp (hD : ∀ {a b}, D a b → D' a b) (hU : ∀ {a b}, U a b → U' a b)
    (hR : ∀ {a b}, R a b → R' a b) {a b : UnitReport} (h : UnitReport.Alike D U R a b) :
    UnitReport.Alike D' U' R' a b :=
  ⟨hU h.unit, hD h.file, h.path, h.rescanned, h.mayNotCompile, h.declaredTypes.imp fun _ _ => hR,
    h.diagnostics.imp fun _ _ hd => hd.imp hD hU⟩

/-- Findings that are alike to a third one. -/
theorem Finding.Alike.both (hU : ∀ c a b, U c a → U' c b → U'' a b) {c a b : Finding}
    (h : Finding.Alike U c a) (h' : Finding.Alike U' c b) : Finding.Alike U'' a b := by
  cases h with
  | alone hr =>
    cases h' with
    | alone _ => exact .alone hr
    | duplicate name _ => cases hr
  | duplicate name hca =>
    cases h' with
    | alone hr => cases hr
    | duplicate _ hcb => exact .duplicate name (hU _ _ _ hca hcb)

/-- Diagnostics that are alike to a third one. -/
theorem Diagnostic.Alike.both (hD : ∀ c a b, D c a → D' c b → D'' a b)
    (hU : ∀ c a b, U c a → U' c b → U'' a b) {c a b : Diagnostic} (h : Diagnostic.Alike D U c a)
    (h' : Diagnostic.Alike D' U' c b) : Diagnostic.Alike D'' U'' a b :=
  ⟨hD _ _ _ h.file h'.file, h.line.symm.trans h'.line, h.column.symm.trans h'.column,
    h.finding.both hU h'.finding⟩

/-- Reports that are alike to a third one. -/
theorem UnitReport.Alike.both (hD : ∀ c a b, D c a → D' c b → D'' a b)
    (hU : ∀ c a b, U c a → U' c b → U'' a b) (hR : ∀ c a b, R c a → R' c b → R'' a b)
    {c a b : UnitReport} (h : UnitReport.Alike D U R c a) (h' : UnitReport.Alike D' U' R' c b) :
    UnitReport.Alike D'' U'' R'' a b :=
  ⟨hU _ _ _ h.unit h'.unit, hD _ _ _ h.file h'.file, h.path.symm.trans h'.path,
    h.rescanned.symm.trans h'.rescanned, h.mayNotCompile.symm.trans h'.mayNotCompile,
    forall₂_both hR h.declaredTypes h'.declaredTypes,
    forall₂_both (fun _ _ _ hc hc' => hc.both hD hU hc') h.diagnostics h'.diagnostics⟩

end

end JavaGraph
