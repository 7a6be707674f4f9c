import JavaGraph.Proofs.Session.SimpleNames
/-!
# Simple names of classes within a type

Local classes are numbered within the innermost type around them, so that those of the same simple
name have names of their own. But one simple name stands for one type at each type: for the type
itself, or else for the last type directly within it that is called so. In whatever block the name
is written, it means that one.
-/

namespace JavaGraph

open JavaGraph.Action

namespace Declarations

/-- The types directly within a type that have a simple name, in the order of the text: a member, and
the local classes of all blocks. -/
def namesakes (declared : Declarations) (owner : DeclaredType) (simple : String) :
    List DeclaredType :=
  (declared.within owner).filter (·.sourceName? = some simple)

/-- At a type, a simple name is that of the type itself or of one directly within it. -/
def Explains (declared : Declarations) (simple : String) (owner : DeclaredType) : Prop :=
  owner.sourceName? = some simple ∨ declared.namesakes owner simple ≠ []

instance (declared : Declarations) (simple : String) (owner : DeclaredType) :
    Decidable (declared.Explains simple owner) := inferInstanceAs (Decidable (_ ∨ _))

/-- Of a type and the types around it, an owner is the innermost one at which a simple name is that
of the owner or of a type directly within it. -/
def Reaches (declared : Declarations) (simple : String) (type owner : DeclaredType) : Prop :=
  (declared.around type).find? (fun outer => decide (declared.Explains simple outer)) = some owner

variable {declared : Declarations} {simple : String} {type owner last : DeclaredType}

/-- At other types the name stands for nothing. -/
private theorem nameAt?_eq_none (h : ¬ declared.Explains simple owner) :
    declared.nameAt? simple owner = none := by
  rw [Explains, not_or, not_not] at h
  unfold nameAt?
  rw [if_neg h.1]
  change ((declared.namesakes owner simple).getLast?).map _ = none
  rw [h.2]
  rfl

/-- The name stands for the last namesake within the owner. -/
private theorem simpleName?_of_reaches (h : declared.Reaches simple type owner)
    (hn : owner.sourceName? ≠ some simple)
    (hl : (declared.namesakes owner simple).getLast? = some last) :
    declared.simpleName? type simple = some last.name := by
  have hat : declared.nameAt? simple owner = some last.name := by
    unfold nameAt?
    rw [if_neg hn]
    exact congrArg (Option.map _) hl
  obtain ⟨-, inner, outer, haround, hinner⟩ := List.find?_eq_some_iff_append.1 h
  have hfound : (declared.around type).findSome? (declared.nameAt? simple) = some last.name := by
    refine List.findSome?_eq_some_iff.2 ⟨inner, owner, outer, haround, hat, fun nearer hm => ?_⟩
    exact nameAt?_eq_none (by simpa using hinner nearer hm)
  unfold simpleName?
  rw [hfound, Option.some_or]

/-- What the name stands for is written as the name of that namesake. -/
theorem Reaches.qualify {name : QualifiedName} (h : declared.Reaches simple type owner)
    (hn : owner.sourceName? ≠ some simple)
    (hl : (declared.namesakes owner simple).getLast? = some last)
    (hq : declared.qualify type [simple] = .ok name) : name = last.name := by
  unfold Declarations.qualify at hq
  rw [qualifiedText_single, simpleName?_of_reaches h hn hl, Option.map_some, Option.getD_some] at hq
  exact QualifiedName.text_inj.1 (QualifiedName.text_of_parse hq)

theorem mem_types_of_mem_namesakes (h : type ∈ declared.namesakes owner simple) :
    type ∈ declared.types :=
  (List.mem_filter.1 (List.mem_filter.1 h).1).1

end Declarations

/-- What the scope of an artifact gives is the type of the artifact that has the name, if there is
one. -/
theorem Scope.Gives.eq_own {scope : Scope} {store : Store} {artifact : ArtifactId}
    {name : QualifiedName} {id own : TypeId} {x : TypeNode} (h : scope.Gives store name id)
    (hs : Scope.Sound store.graph scope) (ha : scope.artifact? = some artifact)
    (hx : store.graph.types.get? own = some x) (hn : x.name = name) (hh : x.home = some artifact) :
    id = own := by
  cases scope with
  | global => cases ha
  | ofArtifact scope =>
    cases ha
    have hfits : scope.Fits store.graph := hs.fits
    have hknown : scope.known.find? name = some own := hfits.known_iff.2 ⟨x, hx, hn, hh⟩
    have hc : scope.cached? name = some id := h
    unfold ArtifactScope.cached? at hc
    rw [hknown] at hc
    exact (Option.some.inj hc).symm

namespace Session

namespace ScannedFile

variable {steps : List Step} {file : ScannedFile steps} {type target : DeclaredType}
  {simple : String} {artifact : ArtifactId}

/-- In the scope of an artifact, a simple name that stands for the name of a declared type of the
file means this type. -/
private theorem Uses.means_declared (h : file.Uses type simple)
    (hf : file.scope.artifact? = some artifact) (ht : target ∈ file.declared.types)
    (hq : file.declared.qualify type [simple] = .ok target.name) :
    file.Means type simple target.name target.id := by
  obtain ⟨hsound, htidy⟩ := file.opened_sound
  obtain ⟨hm, name, hname, given, hgives, hdepends⟩ := h.covers
  cases hq.symm.trans hname
  have hpaired := OpenProject.paired_passes hsound htidy file.config file.source
  obtain ⟨x, hx, hn, hh, -⟩ := file.complete_after ht
  obtain rfl : given = target.id :=
    Scope.Gives.eq_own hgives hpaired.sound.1 (hpaired.scope.trans hf) hx hn (hh.trans hf)
  refine ⟨hq, Scope.Gives.resolve hgives _, ?_, ?_⟩
  · refine hdepends.imp_right fun hdepends => ?_
    have hlater := dependsOn_later file.before file.later file.scansNew file.passes hm hdepends
    rwa [← file.steps_eq] at hlater
  · -- The type refers to what the artifact had when the file was scanned.
    intro y referred z hy hr hz hname
    obtain ⟨y', hy', -, -, hstate⟩ := file.complete_after hm
    have hcomplete : y'.isComplete = true := TypeNode.isComplete_eq_true.2 ⟨_, hstate⟩
    cases hy.symm.trans (file.preserves.declared hy' hcomplete)
    have hwithin := OpenProject.ownIfHad_passes hsound htidy file.config file.source
      (by change file.scope.artifact?.isSome; rw [hf]; rfl) hy' hstate
    obtain ⟨z', hz', hown⟩ := (hwithin.mono file.preserves.toKeepsMembers
      fun hown => hown.preserved file.preserves).of_refers hr
    cases hz.symm.trans hz'
    have hhome : z.home = some artifact := by
      obtain ⟨x, hx, hn, hh, -⟩ := file.complete_after ht
      exact (hown.2 ⟨target.id, x, hx, hn.trans hname.symm, hh⟩).trans hf
    obtain ⟨w, hw, hnw, hhw⟩ := file.own_of_declared hf ht
    exact (sound_run steps).consistent.unique hz hw (hname.trans hnw.symm) (hhome.trans hhw.symm)

/-- Two declared types of the file have different names. -/
private theorem eq_of_name (hf : file.scope.artifact? = some artifact)
    (ht : type ∈ file.declared.types) (ht' : target ∈ file.declared.types)
    (hn : type.name = target.name) : type = target := by
  obtain ⟨hsound, htidy⟩ := file.opened_sound
  obtain ⟨found, start, hcontents⟩ := OpenProject.contents_passes hsound htidy file.passes_eq
  obtain ⟨x, hx, hxn, hh⟩ := file.own_of_declared hf ht
  obtain ⟨y, hy, hyn, hh'⟩ := file.own_of_declared hf ht'
  have hid : type.id = target.id := (sound_run steps).consistent.unique hx hy
    (hxn.trans (hn.trans hyn.symm)) (hh.trans hh'.symm)
  exact List.inj_on_of_nodup_map hcontents.distinct ht ht' hid

end ScannedFile

/-- In every run, a simple name that is written in a type of a file of an artifact means a class
directly within the innermost type around it that is called so, or has classes directly within it
that are, exactly if this class is the last one of them. Thus a local class is meant in its own
block if no later block of the type around declares one of the same simple name. Excepted are the
types that are called so themselves. -/
theorem means_namesake_iff {steps : List Step} (file : ScannedFile steps) {artifact : ArtifactId}
    (hf : file.scope.artifact? = some artifact) {type owner declaring : DeclaredType}
    {simple : String} (hu : file.Uses type simple)
    (hr : file.declared.Reaches simple type owner) (hn : owner.sourceName? ≠ some simple)
    (hd : declaring ∈ file.declared.namesakes owner simple) :
    file.Means type simple declaring.name declaring.id ↔
      (file.declared.namesakes owner simple).getLast? = some declaring := by
  obtain ⟨hm, name, hq, -⟩ := hu.covers
  obtain ⟨last, hl⟩ : ∃ last, (file.declared.namesakes owner simple).getLast? = some last :=
    ⟨_, List.getLast?_eq_some_getLast (List.ne_nil_of_mem hd)⟩
  have hlast := Declarations.mem_types_of_mem_namesakes (List.mem_of_getLast? hl)
  obtain rfl : name = last.name := hr.qualify hn hl hq
  rw [hl, Option.some.injEq]
  constructor
  · intro h
    have hname : last.name = declaring.name := Except.ok.inj (hq.symm.trans h.qualify)
    exact file.eq_of_name hf hlast (Declarations.mem_types_of_mem_namesakes hd) hname
  · rintro rfl
    exact hu.means_declared hf hlast hq

/-- A class declares a local class in two blocks. Behind the second one its name is written. -/
theorem means_lastLocalClass :
    let source : SourceText := ⟨"A.java", "class A \x7b void n() \x7b class L \x7b \x7d \x7d\n" ++
      "void m() \x7b class L \x7b \x7d class K \x7b L l; \x7d \x7d \x7d"⟩
    let steps : List Step :=
      [.addArtifact "app" [], .enter (some ⟨0⟩), .scan {} source.path source.text]
    ∃ (file : ScannedFile steps) (type owner declaring : DeclaredType),
      file.source = source ∧ file.Uses type "L" ∧ file.declared.Reaches "L" type owner ∧
      type.name.text = "A$1K" ∧ owner.name.text = "A" ∧ declaring.name.text = "A$2L" ∧
      file.Means type "L" declaring.name declaring.id := by
  intro source steps
  have h : readsFile (steps.take 2) source ⟨0⟩ (fun declared =>
      declared.types.any fun type => declared.hasFieldOf type "L" && type.name.text = "A$1K" &&
        ((declared.around type).find? (fun outer => decide (declared.Explains "L" outer))).any
          fun owner => owner.name.text = "A" && owner.sourceName? ≠ some "L" &&
            (declared.namesakes owner "L").getLast?.any (·.name.text = "A$2L")) = true := by
    decide +kernel
  obtain ⟨file, hs, ha, htest⟩ := exists_of_readsFile (rfl : steps = _ ++ _ :: []) h
  simp only [List.any_eq_true, Option.any_eq_true, Bool.and_eq_true, decide_eq_true_eq] at htest
  obtain ⟨type, ht, ⟨hfield, htype⟩, owner, hr, ⟨howner, hn⟩, last, hl, hlast⟩ := htest
  have hu := file.uses_of_field ht hfield
  exact ⟨file, type, owner, last, hs, hu, hr, htype, howner, hlast,
    (means_namesake_iff file ha hu hr hn (List.mem_of_getLast? hl)).2 hl⟩

/-- The same, and the name is written in the first block. There it means the class that the second
one declares. -/
theorem means_otherLocalClass :
    let text := "class A \x7b\n void m() \x7b class L \x7b \x7d L a; \x7d\n " ++
      "void n() \x7b class L \x7b \x7d \x7d\n\x7d"
    let graph := (run [.addArtifact "app" [], .enter (some ⟨0⟩),
      .scan {} "A.java" text]).project.store.graph
    (parseSource text {}).errors = [] ∧
    ([⟨0⟩, ⟨1⟩, ⟨2⟩] : List TypeId).map
        (fun id => (graph.types.get? id).map fun x => (x.name.text, x.span, x.dependsOn)) =
      [some ("A", some ⟨1, 4⟩, [⟨2⟩]), some ("A$1L", some ⟨2, 2⟩, []),
        some ("A$2L", some ⟨3, 3⟩, [])] := by
  intro text graph
  exact ⟨by decide +kernel, by decide +kernel⟩

end Session

end JavaGraph
