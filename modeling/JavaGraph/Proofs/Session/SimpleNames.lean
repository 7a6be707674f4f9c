import JavaGraph.Proofs.Session.Boundary
import JavaGraph.Proofs.Session.Depends
/-!
# Simple names throughout a package

A capitalised simple name that a file does not explain stands for the type of that name in the
package of the file. So in an artifact without dependencies all files of the package mean the same
type by it, the file that declares it among them, in whatever order they are scanned. The types
that every file sees come before those of the package: their names mean other types in the file
that declares them.
-/

namespace JavaGraph

open JavaGraph.Action

/-! ### Names that are left to the package -/

/-- A simple name that a file does not explain falls back to the package of the file: it is
capitalised, unless there is no package, and it is not the name of a type that every file sees,
unless these are the types of the package. -/
structure Header.FallsBack (header : Header) (simple : String) : Prop where
  capitalised : Text.startsUppercase simple = true ∨ header.package = none
  standard : simple ∈ standardTypes → header.package = some "java.lang"

namespace Declarations

/-- Inside a type, a simple name is left to the package: the file explains it by a type at its top
level, or not at all. -/
def LeavesToPackage (declared : Declarations) (owner : DeclaredType) (simple : String) : Prop :=
  declared.simpleName? owner simple = none ∨
    simple ∈ declared.topLevel ∧
      declared.simpleName? owner simple = declared.topLevelName? simple

instance (declared : Declarations) (owner : DeclaredType) (simple : String) :
    Decidable (declared.LeavesToPackage owner simple) := inferInstanceAs (Decidable (_ ∨ _))

/-- A name is left to the package if the file neither imports it nor declares a type that is called
so. -/
theorem leavesToPackage_of_absent {declared : Declarations} {owner : DeclaredType} {simple : String}
    (hm : owner ∈ declared.types) (hi : declared.header.imports.find? simple = none)
    (ht : simple ∉ declared.topLevel)
    (hd : ∀ type ∈ declared.types, type.sourceName? ≠ some simple) :
    declared.LeavesToPackage owner simple := by
  left
  have hnone : ∀ type ∈ declared.around owner, declared.nameAt? simple type = none := by
    intro type htype
    have htype : type ∈ declared.types := by
      rcases List.mem_cons.1 htype with rfl | htype
      · exact hm
      · obtain ⟨id, -, hf⟩ := List.mem_filterMap.1 htype
        exact List.mem_of_find?_eq_some hf
    have hwithin : (declared.within type).filter (·.sourceName? = some simple) = [] := by
      refine List.filter_eq_nil_iff.2 fun inner hinner => ?_
      rw [decide_eq_true_eq]
      exact hd inner (List.mem_filter.1 hinner).1
    unfold nameAt?
    rw [if_neg (hd type htype), hwithin]
    rfl
  unfold simpleName? topLevelName?
  rw [List.findSome?_eq_none_iff.2 hnone, List.contains_eq_mem, decide_eq_false ht, hi]
  rfl

/-- What a simple name stands for is explained by the file, or else it is what the name falls back
to. -/
theorem qualifiedText_single (declared : Declarations) (owner : DeclaredType)
    (simple : String) : declared.qualifiedText owner [simple] =
      ((declared.simpleName? owner simple).map (·.text)).getD
        (if Text.startsUppercase simple then declared.header.fallback simple else simple) := by
  unfold qualifiedText
  simp only [List.foldl_nil]
  cases declared.simpleName? owner simple <;> rfl

/-- A name does not begin with a dot. -/
private theorem fault?_dot (text : String) : Name.fault? ("." ++ text) ≠ none := by
  have hchars : ("." ++ text).toList = '.' :: text.toList := by simp
  have hempty : ("." ++ text).isEmpty = false := by
    rw [← Bool.not_eq_true, String.isEmpty_iff]
    intro h
    simp [h] at hchars
  have hdot : Name.isSeparator '.' = true := rfl
  unfold Name.fault?
  rw [hempty, hchars, Name.segments, if_neg Bool.false_ne_true, if_pos hdot, List.findSome?_cons]
  simp [Name.segmentFault?]

/-- What a capitalised name falls back to is the type of that name in the package of the file. -/
private theorem inPackage_of_fallback {header : Header} {simple : String} {name : QualifiedName}
    (hs : simple ∈ standardTypes → header.package = some "java.lang")
    (h : QualifiedName.parse (header.fallback simple) = .ok name) :
    QualifiedName.inPackage header.package simple = .ok name := by
  unfold Header.fallback at h
  unfold QualifiedName.inPackage
  rw [List.contains_eq_mem] at h
  by_cases hm : simple ∈ standardTypes
  · rw [decide_eq_true hm, if_pos rfl] at h
    rw [hs hm]
    exact h
  · rw [decide_eq_false hm, if_neg Bool.false_ne_true] at h
    cases hp : header.package with
    | none =>
      rw [hp] at h
      exact h
    | some package =>
      rw [hp] at h
      simp only at h ⊢
      split
      · next he =>
        -- In a package without a name the type would have a name that begins with a dot.
        rw [String.isEmpty_iff] at he
        rw [he, String.empty_append] at h
        refine absurd name.faultless ?_
        rw [QualifiedName.text_of_parse h]
        exact fault?_dot simple
      · exact h

/-- A simple name that the file does not explain stands for the type of that name in its package. -/
private theorem inPackage_of_unexplained {declared : Declarations} {owner : DeclaredType}
    {simple : String} {name : QualifiedName} (h : declared.header.FallsBack simple)
    (hn : declared.simpleName? owner simple = none)
    (hq : declared.qualify owner [simple] = .ok name) :
    QualifiedName.inPackage declared.header.package simple = .ok name := by
  unfold Declarations.qualify at hq
  rw [qualifiedText_single, hn, Option.map_none, Option.getD_none] at hq
  split at hq
  · exact inPackage_of_fallback h.standard hq
  · next hu =>
    rw [h.capitalised.resolve_left hu]
    exact hq

/-- A simple name that is left to the package stands for the type of that name in the package,
whether the file declares the type or not. -/
theorem LeavesToPackage.qualify {declared : Declarations} {owner : DeclaredType} {simple : String}
    {name : QualifiedName} (h : declared.LeavesToPackage owner simple)
    (hf : declared.header.FallsBack simple)
    (hq : declared.qualify owner [simple] = .ok name) :
    QualifiedName.inPackage declared.header.package simple = .ok name := by
  rcases h with hn | ⟨htop, he⟩
  · exact inPackage_of_unexplained hf hn hq
  · unfold topLevelName? at he
    rw [List.contains_eq_mem, decide_eq_true htop, if_pos rfl] at he
    cases hp : QualifiedName.inPackage declared.header.package simple with
    | error e =>
      rw [hp] at he
      exact hp ▸ inPackage_of_unexplained hf he hq
    | ok top =>
      rw [hp] at he
      unfold Declarations.qualify at hq
      rw [qualifiedText_single, he] at hq
      exact congrArg Except.ok (QualifiedName.text_inj.1 (QualifiedName.text_of_parse hq)).symm

/-- Whether a field of a type is written with a simple name as its type, which is no type parameter
and well-formed. -/
def hasFieldOf (declared : Declarations) (owner : DeclaredType) (simple : String) : Bool :=
  !declared.isTypeVariable owner [] simple && (declared.qualify owner [simple]).toOption.isSome &&
    owner.body?.any fun body => body.children.any fun member =>
      member.kind = .fieldDecl && (member.childOfKind? .typeRef).any fun node =>
        Mention.primitive? node = none && node.identifiers.map (·.text) = [simple]

end Declarations

/-! ### Scopes of artifacts without dependencies -/

/-- What the scope of an artifact without dependencies gives is the type of that name in the
artifact. -/
theorem Scope.Gives.own {scope : Scope} {store : Store} {artifact : ArtifactId}
    {name : QualifiedName} {id : TypeId} (h : scope.Gives store name id)
    (hs : Scope.Sound store.graph scope) (hh : Scope.Honest store.graph scope)
    (ha : scope.artifact? = some artifact) (hd : store.graph.dependenciesOf (some artifact) = []) :
    ∃ x, store.graph.types.get? id = some x ∧ x.name = name ∧ x.home = some artifact := by
  cases scope with
  | global => cases ha
  | ofArtifact own =>
    cases ha
    have hfits : own.Fits store.graph := hs.fits
    have hc : own.cached? name = some id := h
    rcases Option.or_eq_some_iff.1 hc with hk | ⟨-, hb⟩
    · exact hfits.known_iff.1 hk
    · obtain ⟨_, _, -, -, -, hm⟩ := hh.borrowed own name id rfl hb
      rw [hd] at hm
      cases hm

namespace Session

/-- The graph of a sound session is consistent. -/
theorem Sound.consistent {session : Session} (h : session.Sound) :
    session.project.store.graph.Consistent := by
  unfold Sound at h
  split at h
  · exact h.1
  · exact Scope.Sound.consistent h
  · exact h.elim

/-! ### Files of a run -/

/-- A file that a run has scanned: it was new in its scope, and its types have been declared. -/
structure ScannedFile (steps : List Step) where
  before : List Step
  config : ScanConfig
  source : SourceText
  later : List Step
  steps_eq : steps = before ++ .scan config source.path source.text :: later
  scope : Scope
  scansNew : (run before).ScansNew scope source
  declared : Declarations
  passes : ((run before).passes scope config source).1 = .ok declared

namespace ScannedFile

variable {steps : List Step}

/-- The project in which the file is scanned. -/
def opened (file : ScannedFile steps) : OpenProject :=
  { (run file.before).project with scope := file.scope }

/-- The state after the three passes over the file. -/
def after (file : ScannedFile steps) : ScanState :=
  ((run file.before).passes file.scope file.config file.source).2

/-- The place of references in a type of the file. -/
def site (file : ScannedFile steps) (type : DeclaredType) : ReferenceSite :=
  ⟨⟨file.opened.store.graph.units.nextId, file.opened.fileOf file.source⟩, file.declared, type⟩

/-- A type of the file refers to another one by a simple name, which is written as a type where the
passes look, or in any other way that makes them resolve it. -/
inductive Uses (file : ScannedFile steps) (type : DeclaredType) (simple : String) : Prop
  | written {typeVariables : List String} {node : Tree} {name : QualifiedName} :
      type ∈ file.declared.types →
      (file.site type).Writes (file.site type).passesOver typeVariables node →
      (file.site type).Names typeVariables node name → node.identifiers.map (·.text) = [simple] →
      Uses file type simple
  | resolved {token : Token} {reference : Reference} :
      file.opened.Refers file.config file.source file.declared file.after type reference →
      reference ∈ (file.site type).references [token] → token.text = simple →
      Uses file type simple

/-- In a type of the file, a simple name stands for a target under its qualified name, and does so
after the whole run: the scope has answered with the target, the type depends on the target unless
it is the target itself, and it refers to no other type of the name. -/
structure Means (file : ScannedFile steps) (type : DeclaredType) (simple : String)
    (name : QualifiedName) (target : TypeId) : Prop where
  qualify : file.declared.qualify type [simple] = .ok name
  resolve : file.after.scope.resolve name (file.site type).source.unit file.after.store =
    (.ok (target, file.after.scope), file.after.store)
  dependsOn : target = type.id ∨ (run steps).project.store.graph.DependsOn type.id target
  only : ∀ {x referred y}, (run steps).project.store.graph.types.get? type.id = some x →
    (run steps).project.store.graph.Refers x referred →
    (run steps).project.store.graph.types.get? referred = some y → y.name = name →
    referred = target

variable (file : ScannedFile steps) {type : DeclaredType} {simple : String}
  {artifact : ArtifactId} {node : Artifact}

/-- A type refers to another one by the type of a field. -/
theorem uses_of_field (ht : type ∈ file.declared.types)
    (h : file.declared.hasFieldOf type simple = true) : file.Uses type simple := by
  unfold Declarations.hasFieldOf at h
  simp only [Bool.and_eq_true, Bool.not_eq_true', Option.any_eq_true, List.any_eq_true,
    decide_eq_true_eq, Option.isSome_iff_exists] at h
  obtain ⟨⟨hv, name, hq⟩, body, hb, member, hm, hk, node, hn, hprimitive, hids⟩ := h
  have hnk : node.kind = .typeRef := beq_iff_eq.1 (List.find?_some hn :)
  obtain ⟨token, hidentifiers, htext⟩ := List.map_eq_singleton_iff.1 hids
  have hvariables : member.memberVariables = [] := by
    unfold Tree.memberVariables
    rw [hk]
  have hover : (file.site type).passesOver member node = false := by
    unfold ReferenceSite.passesOver
    rw [hk, hnk]
    rfl
  have hq := ok_of_toOption hq
  refine .written ht (.member hb hm ?_ (.first hn ?_ hover (.here node)))
    ⟨hnk, hprimitive, ?_, hids.symm ▸ hq⟩ hids
  · rw [hk]
    rfl
  · rw [hnk]
    rfl
  · rw [hvariables, hidentifiers]
    change file.declared.isTypeVariable type [] token.text = false
    rw [htext]
    exact hv

theorem opened_sound : file.opened.Sound ∧ file.opened.Tidy :=
  file.scansNew.opened (sound_run file.before) (tidy_run file.before)

theorem passes_eq :
    OpenProject.passes file.config file.opened file.source = (.ok file.declared, file.after) :=
  Prod.ext file.passes rfl

/-- What is written by a simple name is covered. -/
theorem Uses.covers (h : file.Uses type simple) : type ∈ file.declared.types ∧
    ∃ name, file.declared.qualify type [simple] = .ok name ∧ file.after.Covers type.id name := by
  obtain ⟨hsound, htidy⟩ := file.opened_sound
  cases h with
  | written ht hw hn hids =>
    refine ⟨ht, _, ?_, OpenProject.covers_passes hsound htidy file.passes_eq ht hw hn⟩
    have hq := hn.qualify
    rw [hids] at hq
    exact hq
  | resolved href hr hs =>
    obtain ⟨ht, hcovers⟩ := href.covers
    refine ⟨ht, _, ?_, hcovers⟩
    have hq := ReferenceSite.qualify_of_mem_references hr
    rw [List.map_singleton, hs] at hq
    exact hq

/-- The run up to the scan of the file. -/
def scanned : List Step :=
  file.before ++ [.scan file.config file.source.path file.source.text]

private theorem scanned_append : file.scanned ++ file.later = steps := by
  unfold scanned
  rw [List.append_assoc]
  exact file.steps_eq.symm

private theorem graph_scanned :
    (run file.scanned).project.store.graph = file.after.store.graph :=
  file.scansNew.graph_run file.config

theorem preserves :
    Graph.Preserves file.after.store.graph (run steps).project.store.graph := by
  have h := preserves_run file.scanned file.later
  rwa [file.scanned_append, file.graph_scanned] at h

/-- If the artifact has no dependencies in the end, it has none when the file is scanned. -/
private theorem dependenciesOf_after
    (ha : (run steps).project.store.graph.artifacts.get? artifact = some node)
    (hd : node.dependencies = []) : file.after.store.graph.dependenciesOf (some artifact) = [] := by
  have h := widens_run file.scanned file.later
  rw [file.scanned_append, file.graph_scanned] at h
  have hsub := h.dependencies (some artifact)
  have hend : (run steps).project.store.graph.dependenciesOf (some artifact) = [] := by
    unfold Graph.dependenciesOf
    simp [ha, hd]
  rw [hend] at hsub
  exact List.subset_nil.1 hsub

/-- The scope is still that of the artifact, and what it gives is the type of that name in it. -/
private theorem own_of_gives (hf : file.scope.artifact? = some artifact)
    (ha : (run steps).project.store.graph.artifacts.get? artifact = some node)
    (hd : node.dependencies = []) {name : QualifiedName} {target : TypeId}
    (h : file.after.Gives name target) : ∃ x,
      (run steps).project.store.graph.types.get? target = some x ∧ x.name = name ∧
        x.home = some artifact := by
  obtain ⟨hsound, htidy⟩ := file.opened_sound
  have hhonest := (OpenProject.admits_passes hsound htidy
    ((bounded_run file.before).scopes file.scope (by simp [file.scansNew.scopes])) file.config
    file.source).1
  have hpaired := OpenProject.paired_passes hsound htidy file.config file.source
  obtain ⟨x, hx, hn, hh⟩ := Scope.Gives.own h hpaired.sound.1 hhonest (hpaired.scope.trans hf)
    (file.dependenciesOf_after ha hd)
  obtain ⟨y, hy, hny, hhy⟩ := file.preserves.known hx
  exact ⟨y, hy, hny.trans hn, hhy.trans hh⟩

/-- The passes have declared the types of the file in their scope. -/
theorem complete_after (ht : type ∈ file.declared.types) : ∃ x,
    file.after.store.graph.types.get? type.id = some x ∧ x.name = type.name ∧
      x.home = file.scope.artifact? ∧
      x.state = .complete file.opened.store.graph.units.nextId := by
  obtain ⟨hsound, htidy⟩ := file.opened_sound
  obtain ⟨found, start, hcontents⟩ := OpenProject.contents_passes hsound htidy file.passes_eq
  obtain ⟨reports, haccounted, -⟩ := hcontents.accounted
  exact haccounted.complete type ht

/-- The declared types of the file belong to the artifact under their names. -/
theorem own_of_declared (hf : file.scope.artifact? = some artifact)
    (ht : type ∈ file.declared.types) : ∃ x,
      (run steps).project.store.graph.types.get? type.id = some x ∧ x.name = type.name ∧
        x.home = some artifact := by
  obtain ⟨x, hx, hn, hh, -⟩ := file.complete_after ht
  obtain ⟨y, hy, hny, hhy⟩ := file.preserves.known hx
  exact ⟨y, hy, hny.trans hn, hhy.trans (hh.trans hf)⟩

/-- In an artifact without dependencies, a simple name that is left to the package means the type of
that name in the package and in the artifact. -/
private theorem Uses.means (h : file.Uses type simple)
    (hf : file.scope.artifact? = some artifact)
    (ha : (run steps).project.store.graph.artifacts.get? artifact = some node)
    (hd : node.dependencies = []) (hb : file.declared.header.FallsBack simple)
    (hl : file.declared.LeavesToPackage type simple) :
    ∃ name target x, QualifiedName.inPackage file.declared.header.package simple = .ok name ∧
      file.Means type simple name target ∧
      (run steps).project.store.graph.types.get? target = some x ∧ x.name = name ∧
      x.home = some artifact := by
  obtain ⟨ht, name, hq, target, hgives, hdepends⟩ := h.covers
  obtain ⟨x, hx, hn, hh⟩ := file.own_of_gives hf ha hd hgives
  refine ⟨name, target, x, hl.qualify hb hq, ⟨hq, Scope.Gives.resolve hgives _, ?_, ?_⟩, hx, hn, hh⟩
  · refine hdepends.imp_right fun hdepends => ?_
    have hlater := dependsOn_later file.before file.later file.scansNew file.passes ht hdepends
    rwa [← file.steps_eq] at hlater
  · intro y referred z hy hr hz hname
    obtain ⟨y', hy', -, hhy⟩ := file.own_of_declared hf ht
    cases hy.symm.trans hy'
    have hadmits := ((bounded_run steps).graph type.id y hy).of_refers hr
    rw [hhy] at hadmits
    rcases hadmits with ⟨z', hz', hhz⟩ | ⟨_, he, _, _, -, -, -, hm⟩
    · cases hz.symm.trans hz'
      exact (sound_run steps).consistent.unique hz hx (hname.trans hn.symm) (hhz.trans hh.symm)
    · cases he
      unfold Graph.dependenciesOf at hm
      simp [ha, hd] at hm

end ScannedFile

/-- A new file is scanned in the scope of an artifact without failing. -/
theorem exists_scannedFile (before later : List Step) (config : ScanConfig) {scope : Scope}
    {source : SourceText} (hnew : (run before).ScansNew scope source)
    (ha : scope.artifact?.isSome) :
    ∃ file : ScannedFile (before ++ .scan config source.path source.text :: later),
      file.before = before ∧ file.config = config ∧ file.source = source ∧ file.scope = scope := by
  obtain ⟨hsound, htidy⟩ := hnew.opened (sound_run before) (tidy_run before)
  obtain ⟨declared, _, _, hd, -⟩ := OpenProject.reached_passes hsound htidy config source ha
  exact ⟨⟨before, config, source, later, rfl, scope, hnew, declared, hd⟩, rfl, rfl, rfl, rfl⟩

/-- In every run, a simple name that is left to the package means the same type in all files of the
package that belong to an artifact without dependencies, in whatever order these are scanned. If one
of them declares a type of that name in the package, it is this type. Excepted are names that do
not fall back to the package. -/
theorem means_run {steps : List Step} (file other : ScannedFile steps) {artifact : ArtifactId}
    {node : Artifact} (ha : (run steps).project.store.graph.artifacts.get? artifact = some node)
    (hd : node.dependencies = []) (hf : file.scope.artifact? = some artifact)
    (ho : other.scope.artifact? = some artifact)
    (hp : other.declared.header.package = file.declared.header.package) {simple : String}
    (hb : file.declared.header.FallsBack simple) {type type' : DeclaredType}
    (hr : file.Uses type simple) (hr' : other.Uses type' simple)
    (hl : file.declared.LeavesToPackage type simple)
    (hl' : other.declared.LeavesToPackage type' simple) :
    ∃ name target, QualifiedName.inPackage file.declared.header.package simple = .ok name ∧
      file.Means type simple name target ∧ other.Means type' simple name target ∧
      ∀ declaring ∈ file.declared.types, declaring.name = name → declaring.id = target := by
  have hb' : other.declared.header.FallsBack simple :=
    ⟨hb.capitalised.imp_right hp.trans, fun hm => hp.trans (hb.standard hm)⟩
  obtain ⟨name, target, x, hname, hmeans, hx, hn, hh⟩ := hr.means file hf ha hd hb hl
  obtain ⟨name', target', x', hname', hmeans', hx', hn', hh'⟩ := hr'.means other ho ha hd hb' hl'
  rw [hp, hname] at hname'
  cases hname'
  have hconsistent := (sound_run steps).consistent
  obtain rfl := hconsistent.unique hx' hx (hn'.trans hn.symm) (hh'.trans hh.symm)
  refine ⟨name, target', hname, hmeans, hmeans', fun declaring hm he => ?_⟩
  obtain ⟨y, hy, hny, hhy⟩ := file.own_of_declared hf hm
  exact hconsistent.unique hy hx (hny.trans (he.trans hn.symm)) (hhy.trans hh.symm)

/-- In the scope of an artifact a file is new, and its declarations pass a test. -/
def readsFile (steps : List Step) (source : SourceText) (artifact : ArtifactId)
    (test : Declarations → Bool) : Bool :=
  (run steps).scopes.map (·.artifact?) = [some artifact] && (run steps).scopes.all fun scope =>
    (run steps).project.store.graph.unitAt? source.path scope.artifact? = none &&
      ((run steps).passes scope {} source).1.toOption.any test

/-- Then the file is scanned. -/
theorem exists_of_readsFile {steps before later : List Step} {source : SourceText}
    {artifact : ArtifactId} {test : Declarations → Bool}
    (he : steps = before ++ .scan {} source.path source.text :: later)
    (h : readsFile before source artifact test = true) :
    ∃ file : ScannedFile steps, file.source = source ∧ file.scope.artifact? = some artifact ∧
      test file.declared = true := by
  unfold readsFile at h
  rw [Bool.and_eq_true, decide_eq_true_eq] at h
  obtain ⟨hscopes, hall⟩ := h
  obtain ⟨scope, hs, hartifact⟩ := List.map_eq_singleton_iff.1 hscopes
  rw [hs, List.all_cons, Bool.and_eq_true] at hall
  have hfacts := hall.1
  simp only [Bool.and_eq_true, decide_eq_true_eq, Option.any_eq_true] at hfacts
  obtain ⟨hnew, declared, hd, htest⟩ := hfacts
  exact ⟨⟨before, {}, source, later, he, scope, ⟨hs, hnew⟩, declared, ok_of_toOption hd⟩, rfl,
    hartifact, htest⟩

/-- In the scope of an artifact a file is new, and a field of a type of it has a simple name as its
type that is left to the package. -/
def readsField (steps : List Step) (source : SourceText) (artifact : ArtifactId)
    (package : Option String) (simple : String) : Bool :=
  (run steps).scopes.map (·.artifact?) = [some artifact] && (run steps).scopes.all fun scope =>
    (run steps).project.store.graph.unitAt? source.path scope.artifact? = none &&
      ((run steps).passes scope {} source).1.toOption.any fun declared =>
        declared.header.package = package && declared.types.any fun type =>
          declared.hasFieldOf type simple && declared.LeavesToPackage type simple

/-- Then the file refers to another type by the simple name. -/
theorem exists_of_readsField {steps before later : List Step} {source : SourceText}
    {artifact : ArtifactId} {package : Option String} {simple : String}
    (he : steps = before ++ .scan {} source.path source.text :: later)
    (h : readsField before source artifact package simple = true) :
    ∃ (file : ScannedFile steps) (type : DeclaredType), file.source = source ∧
      file.scope.artifact? = some artifact ∧ file.declared.header.package = package ∧
      file.Uses type simple ∧ file.declared.LeavesToPackage type simple := by
  have h : readsFile before source artifact (fun declared =>
      declared.header.package = package && declared.types.any fun type =>
        declared.hasFieldOf type simple && declared.LeavesToPackage type simple) = true := h
  obtain ⟨file, hs, hartifact, htest⟩ := exists_of_readsFile he h
  simp only [Bool.and_eq_true, decide_eq_true_eq, List.any_eq_true] at htest
  obtain ⟨hp, type, ht, hfield, hl⟩ := htest
  exact ⟨file, type, hs, hartifact, hp, file.uses_of_field ht hfield, hl⟩

/-- A file names a class of its package, and then the class is declared. -/
def declaredAfterUse : List Step :=
  [.addArtifact "app" [], .enter (some ⟨0⟩),
    .scan {} "User.java" "package p; class User \x7b Shared shared; \x7d",
    .scan {} "Shared.java" "package p; class Shared \x7b Shared next; \x7d"]

/-- Both files mean the same class. -/
theorem means_declaredAfterUse :
    ∃ (file other : ScannedFile declaredAfterUse) (type type' : DeclaredType)
      (name : QualifiedName) (target : TypeId),
      file.source.path = "Shared.java" ∧ other.source.path = "User.java" ∧
      file.Uses type "Shared" ∧ other.Uses type' "Shared" ∧ name.text = "p.Shared" ∧
      file.Means type "Shared" name target ∧ other.Means type' "Shared" name target := by
  have h : readsField (declaredAfterUse.take 3)
        ⟨"Shared.java", "package p; class Shared \x7b Shared next; \x7d"⟩ ⟨0⟩ (some "p") "Shared" ∧
      readsField (declaredAfterUse.take 2)
        ⟨"User.java", "package p; class User \x7b Shared shared; \x7d"⟩ ⟨0⟩ (some "p") "Shared" ∧
      ((run declaredAfterUse).project.store.graph.artifacts.get? ⟨0⟩).map (·.dependencies) =
        some [] := by decide +kernel
  obtain ⟨hfile, hother, hnode⟩ := h
  obtain ⟨file, type, hs, ha, hp, hu, hl⟩ :=
    exists_of_readsField (rfl : declaredAfterUse = _ ++ _ :: []) hfile
  obtain ⟨other, type', hs', ha', hp', hu', hl'⟩ :=
    exists_of_readsField (rfl : declaredAfterUse = _ ++ _ :: [_]) hother
  obtain ⟨node, hn, hd⟩ := Option.map_eq_some_iff.1 hnode
  obtain ⟨name, target, hname, hmeans, hmeans', -⟩ := means_run file other hn hd ha ha'
    (hp'.trans hp.symm) ⟨.inl (by decide), fun hm => absurd hm (by decide)⟩ hu hu' hl hl'
  refine ⟨file, other, type, type', name, target, congrArg _ hs, congrArg _ hs', hu, hu', ?_,
    hmeans, hmeans'⟩
  rw [hp] at hname
  exact QualifiedName.text_of_parse hname

/-- A class of the package is called like one that every file sees. In the file that declares it
the name means the class, and in another file of the package, which neither declares nor imports the
name, it means the one that every file sees. -/
theorem standardName_elsewhere :
    let own : SourceText := ⟨"String.java", "package p; class String \x7b String own; \x7d"⟩
    let other : SourceText := ⟨"User.java", "package p; class User \x7b String other; \x7d"⟩
    let header (source : SourceText) : Header :=
      (Header.ofTree ⟨0⟩ (OpenProject.parsed {} source).root).1
    let graph := (run [.addArtifact "app" [], .enter (some ⟨0⟩), .scan {} own.path own.text,
      .scan {} other.path other.text]).project.store.graph
    ((OpenProject.parsed {} own).errors = [] ∧ (OpenProject.parsed {} other).errors = [] ∧
      (header own).package = some "p" ∧ (header other).package = some "p" ∧
      (header other).imports.find? "String" = none ∧
      (Site.ofTree (OpenProject.parsed {} other).root).map (·.name?.map (·.text)) =
        [some "User"]) ∧
    (graph.artifacts.get? ⟨0⟩).map (·.dependencies) = some [] ∧
    ([⟨0⟩, ⟨1⟩, ⟨2⟩] : List TypeId).map
        (fun id => (graph.types.get? id).map fun x => (x.name.text, x.home, x.isComplete)) =
      [some ("p.String", some ⟨0⟩, true), some ("p.User", some ⟨0⟩, true),
        some ("java.lang.String", some ⟨0⟩, false)] ∧
    ([⟨0⟩, ⟨1⟩] : List FieldId).map
        (fun id => (graph.fields.get? id).map fun x => (x.name, x.declaringType, x.typeUse.base)) =
      [some ("own", ⟨0⟩, .declared ⟨0⟩), some ("other", ⟨1⟩, .declared ⟨2⟩)] := by
  intro own other header graph
  refine ⟨?_, ?_⟩ <;> decide +kernel

end Session

end JavaGraph
