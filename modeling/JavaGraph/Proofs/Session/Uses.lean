import JavaGraph.Proofs.Scan.Contents
import JavaGraph.Proofs.Session.Settled
/-!
# What functions use

A function uses a field of its type as often as its block says, and what is scanned later changes
nothing about that. A field of a type around is used as often as its name is free in the block. The
local variables of code around the type do not count there.
-/

namespace JavaGraph

open List (Forall₂)
open BodyEvent (usesOf isUse declaredLocals)

/-! ### Uses that denote a field -/

namespace NameUse

variable {own seen : Option FieldId} {field : FieldId} {uses : List NameUse}

/-- If a name denotes a field wherever it is used, every use counts that writes. -/
private theorem count_write (h : ∀ use ∈ uses, use.field? own seen = some field) :
    count own seen field .write uses = uses.countP (·.role ≠ .read) := by
  refine List.countP_congr fun use hm => ?_
  rw [h use hm]
  cases use.role <;> simp [Role.accesses]

/-- And every use counts that reads. -/
private theorem count_read (h : ∀ use ∈ uses, use.field? own seen = some field) :
    count own seen field .read uses = uses.countP (·.role ≠ .assigned) := by
  refine List.countP_congr fun use hm => ?_
  rw [h use hm]
  cases use.role <;> simp [Role.accesses]

/-- If the type itself has no such field, the free uses count, provided that they see the field. -/
private theorem count_outer (h : own ≠ some field) (kind : AccessKind) :
    count own seen field kind uses = if seen = some field then
      uses.countP fun use => !use.ofThis && !use.bound && use.role.accesses.contains kind
      else 0 := by
  unfold count field?
  split
  · next hs =>
    refine List.countP_congr fun use _ => ?_
    cases use.ofThis <;> cases use.bound <;> simp [h, hs]
  · next hs =>
    refine List.countP_eq_zero.2 fun use _ => ?_
    cases use.ofThis <;> cases use.bound <;> simp [h, hs]

end NameUse

namespace Graph

variable {graph : Graph} {id : TypeId} {x : TypeNode} {field : FieldId} {name : String}

/-- If a type has just one field with a name, that is the one that is found. -/
theorem lastFieldNamed?_of_single (hx : graph.types.get? id = some x)
    (h : (x.fields.filter fun other => (graph.fields.get? other).any (·.name = name)) = [field]) :
    graph.lastFieldNamed? id name = some field := by
  unfold lastFieldNamed?
  rw [hx, Option.bind_some, ← List.head?_filter, List.filter_reverse, h]
  rfl

/-- A field that is found is one of the type. -/
theorem mem_of_lastFieldNamed? (hx : graph.types.get? id = some x)
    (h : graph.lastFieldNamed? id name = some field) : field ∈ x.fields := by
  unfold lastFieldNamed? at h
  rw [hx, Option.bind_some] at h
  exact List.mem_reverse.1 (List.mem_of_find?_eq_some h)

end Graph

/-! ### What is scanned later -/

namespace Graph

variable {graph later : Graph} {function : FunctionId} {x : Function} {id : TypeId}

/-- A known function accesses a field as before. -/
private theorem accessesTo_later (h : NewUses graph later)
    (hx : graph.functions.get? function = some x) (field : FieldId) :
    later.accessesTo function field = graph.accessesTo function field := by
  unfold accessesTo
  rw [h.accessesFrom hx]

/-- A known function has the parameters that it had before. -/
private theorem hasParameter_later (h : KeepsMembers graph later)
    (hx : graph.functions.get? function = some x)
    (hp : ∀ parameter ∈ x.parameters, ∃ y, graph.parameters.get? parameter = some y)
    (name : String) : later.hasParameter function name = graph.hasParameter function name := by
  unfold hasParameter
  rw [hx, h.function hx, Option.any_some, Option.any_some]
  rw [Bool.eq_iff_iff, List.any_eq_true, List.any_eq_true]
  refine exists_congr fun parameter => and_congr_right fun hm => ?_
  obtain ⟨y, hy⟩ := hp parameter hm
  rw [hy, h.parameter hy]

/-- The fields of a declared type are known. -/
def FieldsKnown (graph : Graph) (id : TypeId) : Prop :=
  ∃ x, graph.types.get? id = some x ∧ x.isComplete = true ∧
    ∀ field ∈ x.fields, ∃ y, graph.fields.get? field = some y

/-- A declared type has the field with a name that it had before. -/
private theorem lastFieldNamed?_later (h : Preserves graph later) (hk : graph.FieldsKnown id)
    (name : String) : later.lastFieldNamed? id name = graph.lastFieldNamed? id name := by
  obtain ⟨x, hx, hc, hf⟩ := hk
  unfold lastFieldNamed?
  rw [hx, h.declared hx hc, Option.bind_some, Option.bind_some]
  refine List.find?_congr fun field hm => ?_
  obtain ⟨y, hy⟩ := hf field (List.mem_reverse.1 hm)
  rw [hy, h.field hy]

/-- Declared types have the field with a name that they had before. -/
private theorem seenFieldNamed?_later (h : Preserves graph later) {ids : List TypeId}
    (hk : ∀ id ∈ ids, graph.FieldsKnown id) (name : String) :
    later.seenFieldNamed? ids name = graph.seenFieldNamed? ids name := by
  unfold seenFieldNamed?
  induction ids with
  | nil => rfl
  | cons id rest ih =>
    rw [List.forall_mem_cons] at hk
    rw [List.findSome?_cons, List.findSome?_cons, lastFieldNamed?_later h hk.1, ih hk.2]

end Graph

/-- What is scanned later changes nothing about the uses of fields by a function. -/
private theorem DeclaredType.UsesCounted.later {type : DeclaredType} {recordAccesses : Bool}
    {graph later : Graph} {function : FunctionId} {node : Tree}
    (h : type.UsesCounted recordAccesses graph function node) (hp : Graph.Preserves graph later)
    (hu : Graph.NewUses graph later)
    (hk : ∀ id ∈ type.id :: type.outer, graph.FieldsKnown id) :
    type.UsesCounted recordAccesses later function node := by
  obtain ⟨x, hx, hdeclaring, hhead, hparameters⟩ := h.declared
  refine ⟨⟨x, hp.function hx, hdeclaring, hhead, fun parameter hm => ?_⟩, h.shaped, ?_⟩
  · obtain ⟨y, hy⟩ := hparameters parameter hm
    exact ⟨y, hp.parameter hy⟩
  · intro block owner z field y hb howner hz hf hy
    obtain ⟨z', hz', hc, hfields⟩ := hk owner howner
    cases hz.symm.trans (hp.declared hz' hc)
    obtain ⟨y', hy'⟩ := hfields field hf
    cases hy.symm.trans (hp.field hy')
    rw [Graph.accessesTo_later hu hx, h.accesses hb howner hz' hf hy',
      Graph.lastFieldNamed?_later hp (hk _ (List.mem_cons_self ..)),
      Graph.seenFieldNamed?_later hp hk,
      Graph.hasParameter_later hp.toKeepsMembers hx hparameters]

/-- What holds of a result holds of what an action gives. -/
theorem ok_of_any {ε α : Type} {result : Except ε α} {p : α → Bool}
    (h : result.toOption.any p = true) : ∃ value, result = .ok value ∧ p value = true := by
  cases result with
  | error e => cases h
  | ok value => exact ⟨value, rfl, h⟩

namespace Session

/-- The uses of fields that come in with a step are by new functions. -/
private theorem newUses_step {session : Session} (hs : session.Sound) (ht : session.Tidy)
    (step : Step) : Graph.NewUses session.project.store.graph
      (step.run session).project.store.graph := by
  rcases step_cases hs step with hr | ⟨scope, config, source, rfl, hnew⟩
  · exact .of_eq hr.accesses
  · obtain ⟨hsound, htidy⟩ := hnew.opened hs ht
    have hs' : (OpenProject.seeing { session.project with scope } source.path).Sound := hsound
    have ht' : (OpenProject.seeing { session.project with scope } source.path).Tidy :=
      ⟨htidy.graph, htidy.borrowed⟩
    rw [hnew.graph hs ht config]
    unfold passes
    cases hr : OpenProject.passes config { session.project with scope } source with
    | mk result s =>
      obtain ⟨hp, -, -⟩ := OpenProject.scanned_diagonal hs' ht' hr
      exact hp.graphs.newUses.1

/-- The uses of fields that come in with what follows in a run are by new functions. -/
theorem newUses_run (steps later : List Step) :
    Graph.NewUses (run steps).project.store.graph
      (run (steps ++ later)).project.store.graph := by
  induction later using List.reverseRecOn with
  | nil =>
    rw [List.append_nil]
    exact .of_eq rfl
  | append_singleton later step ih =>
    have hstep := newUses_step (sound_run (steps ++ later)) (tidy_run (steps ++ later)) step
    have hrun : run (steps ++ later ++ [step]) = step.run (run (steps ++ later)) := by
      simp [run, List.foldl_append]
    rw [← List.append_assoc, hrun]
    exact ih.trans hstep (preserves_run steps later).function

/-- After every run, the uses of fields by the functions of a scanned file are counted by the names
in their blocks. -/
theorem usesCounted_run (before later : List Step) {scope : Scope} {config : ScanConfig}
    {source : SourceText} {declared : Declarations} {type : DeclaredType}
    (hnew : (run before).ScansNew scope source)
    (hd : ((run before).passes scope config source).1 = .ok declared)
    (ht : type ∈ declared.types) :
    let graph := (run (before ++ .scan config source.path source.text :: later)).project.store.graph
    ∃ x, graph.types.get? type.id = some x ∧
      Forall₂ (type.UsesCounted config.recordAccesses graph) x.functions type.functionNodes := by
  intro graph
  obtain ⟨hsound, htidy⟩ := hnew.opened (sound_run before) (tidy_run before)
  have hpreserves := preserves_run (before ++ [.scan config source.path source.text]) later
  have huses := newUses_run (before ++ [.scan config source.path source.text]) later
  rw [hnew.graph_run, List.append_assoc] at hpreserves huses
  unfold passes at hd hpreserves huses
  cases hr : OpenProject.passes config { (run before).project with scope } source with
  | mk result s =>
    rw [hr] at hd hpreserves huses
    cases hd
    obtain ⟨found, start, hcontents⟩ := OpenProject.contents_passes hsound htidy hr
    obtain ⟨x, hx, hall⟩ := hcontents.usesCounted type ht
    have hknown : ∀ id ∈ type.id :: type.outer, s.store.graph.FieldsKnown id :=
      hcontents.fields_known ht
    obtain ⟨y, hy, hc, -⟩ := hknown type.id (List.mem_cons_self ..)
    cases hx.symm.trans hy
    exact ⟨x, hpreserves.declared hx hc, hall.imp fun function node h =>
      h.later hpreserves huses hknown⟩

/-- After every run, a function that hides a field of its type by no local variable uses the field
as often as it is written in its block: each time it is the target of an assignment, or of `++` or
`--`, counts as a write, and each time it is not the target of a plain assignment as a read. -/
theorem usesBy_own_run (before later : List Step) {scope : Scope} {config : ScanConfig}
    {source : SourceText} {declared : Declarations} {type : DeclaredType}
    (hnew : (run before).ScansNew scope source)
    (hd : ((run before).passes scope config source).1 = .ok declared)
    (ht : type ∈ declared.types) :
    let graph := (run (before ++ .scan config source.path source.text :: later)).project.store.graph
    ∃ x, graph.types.get? type.id = some x ∧ Forall₂ (fun function node =>
      ∀ {block : Tree} {field : FieldId} {y : Field}, node.childOfKind? .block = some block →
        graph.fields.get? field = some y →
        (x.fields.filter fun other => (graph.fields.get? other).any (·.name = y.name)) = [field] →
        graph.hasParameter function y.name = false →
        (∀ inner ∈ block.codeNodes, y.name ∉ declaredLocals inner) →
        let uses := (usesOf y.name .read false block).1
        uses.length = block.codeNodes.countP (isUse y.name) ∧
        (graph.usesBy function field .write =
          if config.recordAccesses then uses.countP (·.role ≠ .read) else 0) ∧
        graph.usesBy function field .read =
          if config.recordAccesses then uses.countP (·.role ≠ .assigned) else 0)
      x.functions type.functionNodes := by
  intro graph
  obtain ⟨x, hx, hall⟩ := usesCounted_run before later hnew hd ht
  refine ⟨x, hx, hall.imp ?_⟩
  intro function node h block field y hb hy hsingle hparameter hlocals uses
  have hown : graph.lastFieldNamed? type.id y.name = some field :=
    Graph.lastFieldNamed?_of_single hx hsingle
  have hseen : graph.seenFieldNamed? (type.id :: type.outer) y.name = some field := by
    unfold Graph.seenFieldNamed?
    rw [List.findSome?_cons, hown]
  have hf : field ∈ x.fields := Graph.mem_of_lastFieldNamed? hx hown
  have hdenotes : ∀ use ∈ uses, use.field? (some field) (some field) = some field := by
    intro use hm
    have hfree := BodyEvent.unbound_usesOf hlocals use hm
    unfold NameUse.field?
    rw [hfree]
    cases use.ofThis <;> rfl
  have hcount : ∀ kind, graph.usesBy function field kind =
      if config.recordAccesses then NameUse.count (some field) (some field) field kind uses else 0 := by
    intro kind
    have hc : graph.usesBy function field kind = _ := h.count hb (List.mem_cons_self ..) hx hf hy kind
    rw [hc]
    change (if config.recordAccesses then NameUse.count (graph.lastFieldNamed? type.id y.name)
      (graph.seenFieldNamed? (type.id :: type.outer) y.name) field kind
      (usesOf y.name .read (graph.hasParameter function y.name) block).1 else 0) = _
    rw [hown, hseen, hparameter]
  refine ⟨BodyEvent.length_usesOf block (h.shaped hb) .read false, ?_, ?_⟩
  · rw [hcount, NameUse.count_write hdenotes]
  · rw [hcount, NameUse.count_read hdenotes]

/-- The first of two lists that correspond do so. -/
theorem forall₂_head {α β : Type} {R : α → β → Prop} {a : α} {as : List α} {b : β}
    {bs : List β} (h : Forall₂ R (a :: as) bs) (hb : bs.head? = some b) : R a b ∧ b ∈ bs := by
  cases h with
  | cons first _ =>
    rw [List.head?_cons, Option.some.injEq] at hb
    exact hb ▸ ⟨first, List.mem_cons_self ..⟩

/-- A function assigns to a field and counts it up, alone and behind `this`, in parentheses and
without. -/
theorem usesBy_own_parenthesised :
    let before : List Step := [.addArtifact "app" [], .enter (some ⟨0⟩)]
    let source : SourceText := ⟨"A.java", "class A \x7b int x; void f(int y) \x7b " ++
      "x = 1; (x)++; this.x += y; f(x); ((this.x)) = x; \x7d \x7d"⟩
    let graph := (run (before ++ [.scan {} source.path source.text])).project.store.graph
    ∃ scope declared type x function node block field y, (run before).ScansNew scope source ∧
      ((run before).passes scope {} source).1 = .ok declared ∧ type ∈ declared.types ∧
      graph.types.get? type.id = some x ∧ function ∈ x.functions ∧
      node ∈ type.functionNodes ∧ node.childOfKind? .block = some block ∧
      graph.fields.get? field = some y ∧
      (x.fields.filter fun other => (graph.fields.get? other).any (·.name = y.name)) = [field] ∧
      graph.hasParameter function y.name = false ∧
      (∀ inner ∈ block.codeNodes, y.name ∉ declaredLocals inner) ∧
      block.codeNodes.countP (isUse y.name) = 6 ∧
      graph.usesBy function field .write = 4 ∧ graph.usesBy function field .read = 4 := by
  intro before source graph
  have hscopes : (run before).scopes.map (·.artifact?) = [some ⟨0⟩] := by decide +kernel
  obtain ⟨scope, hs, hartifact⟩ := List.map_eq_singleton_iff.1 hscopes
  have hn : (run before).project.store.graph.unitAt? source.path scope.artifact? = none := by
    rw [hartifact]
    decide +kernel
  have hpasses : (run before).scopes.all (fun scope =>
      ((run before).passes scope {} source).1.toOption.any fun declared =>
        declared.types.any fun type => type.id = ⟨0⟩ ∧ type.functionNodes.head?.any fun node =>
          (node.childOfKind? .block).any fun block =>
            let uses := (usesOf "x" .read false block).1
            (∀ inner ∈ block.codeNodes, "x" ∉ declaredLocals inner) ∧ uses.length = 6 ∧
              uses.countP (·.role ≠ .read) = 4 ∧ uses.countP (·.role ≠ .assigned) = 4) = true := by
    decide +kernel
  have hgraph : (graph.types.get? ⟨0⟩).map (fun x => (x.fields, x.functions)) =
        some ([⟨0⟩], [⟨0⟩]) ∧ (graph.fields.get? ⟨0⟩).map (·.name) = some "x" ∧
      graph.hasParameter ⟨0⟩ "x" = false := by decide +kernel
  rw [hs, List.all_cons, Bool.and_eq_true] at hpasses
  obtain ⟨declared, hd, hany⟩ := ok_of_any hpasses.1
  obtain ⟨type, ht, hfirst⟩ := List.any_eq_true.1 hany
  obtain ⟨hid, hnode⟩ := of_decide_eq_true hfirst
  obtain ⟨node, hhead, hblock⟩ := (Option.any_eq_true ..).1 hnode
  obtain ⟨block, hb, hfacts⟩ := (Option.any_eq_true ..).1 hblock
  obtain ⟨hlocals, hlength, hwrites, hreads⟩ := of_decide_eq_true hfacts
  obtain ⟨y, hy, hname⟩ := Option.map_eq_some_iff.1 hgraph.2.1
  obtain ⟨x, hx, hall⟩ := usesBy_own_run before [] ⟨hs, hn⟩ hd ht
  rw [hid] at hx
  rw [hx, Option.map_some, Option.some.injEq, Prod.mk.injEq] at hgraph
  obtain ⟨⟨hfields, hfunctions⟩, -, hparameter⟩ := hgraph
  have hsingle : (x.fields.filter fun other =>
      (graph.fields.get? other).any (·.name = y.name)) = [⟨0⟩] := by
    rw [hfields, List.filter_cons_of_pos (by rw [hy]; simp)]
    rfl
  rw [hfunctions] at hall
  obtain ⟨hf, hm⟩ := forall₂_head hall hhead
  rw [← hname] at hparameter hlocals hlength hwrites hreads
  obtain ⟨huses, hwrite, hread⟩ := hf hb hy hsingle hparameter hlocals
  refine ⟨scope, declared, type, x, ⟨0⟩, node, block, ⟨0⟩, y, ⟨hs, hn⟩, hd, ht, hid ▸ hx, ?_, hm,
    hb, hy, hsingle, hparameter, hlocals, huses ▸ hlength, ?_, ?_⟩
  · rw [hfunctions]
    exact List.mem_singleton_self _
  · exact hwrite.trans hwrites
  · exact hread.trans hreads

/-- After every run, a function uses a field of a type around its own as often as the name of the
field is free in its block, if that is the field with the name that is nearest. -/
theorem usesBy_outer_run (before later : List Step) {scope : Scope} {config : ScanConfig}
    {source : SourceText} {declared : Declarations} {type : DeclaredType}
    (hnew : (run before).ScansNew scope source)
    (hd : ((run before).passes scope config source).1 = .ok declared)
    (ht : type ∈ declared.types) :
    let graph := (run (before ++ .scan config source.path source.text :: later)).project.store.graph
    ∃ x, graph.types.get? type.id = some x ∧ Forall₂ (fun function node =>
      ∀ {block : Tree} {owner : TypeId} {z : TypeNode} {field : FieldId} {y : Field},
        node.childOfKind? .block = some block →
        owner ∈ type.outer → graph.types.get? owner = some z → field ∈ z.fields →
        graph.fields.get? field = some y → field ∉ x.fields → ∀ kind,
        graph.usesBy function field kind =
          if config.recordAccesses ∧
            graph.seenFieldNamed? (type.id :: type.outer) y.name = some field
          then ((usesOf y.name .read (graph.hasParameter function y.name) block).1.countP fun use =>
            !use.ofThis && !use.bound && use.role.accesses.contains kind)
          else 0)
      x.functions type.functionNodes := by
  intro graph
  obtain ⟨x, hx, hall⟩ := usesCounted_run before later hnew hd ht
  refine ⟨x, hx, hall.imp ?_⟩
  intro function node h block owner z field y hb howner hz hf hy hne kind
  rw [h.count hb (List.mem_cons_of_mem _ howner) hz hf hy]
  cases config.recordAccesses with
  | false => rw [if_neg Bool.false_ne_true, if_neg fun h => Bool.false_ne_true h.1]
  | true =>
    rw [if_pos rfl, NameUse.count_outer fun hown => hne (Graph.mem_of_lastFieldNamed? hx hown)]
    exact if_congr (and_iff_right rfl).symm rfl rfl

/-- A function of a local class reads a field of the type around once, and then declares a local
variable with the name of the field, which its second use denotes. -/
theorem usesBy_outer_localClass :
    let before : List Step := [.addArtifact "app" [], .enter (some ⟨0⟩)]
    let source : SourceText := ⟨"A.java", "class A \x7b int x; void m() \x7b " ++
      "class C \x7b int f() \x7b int y = x; int x = y; return x; \x7d \x7d \x7d \x7d"⟩
    let graph := (run (before ++ [.scan {} source.path source.text])).project.store.graph
    ∃ scope declared type x z function node block y, (run before).ScansNew scope source ∧
      ((run before).passes scope {} source).1 = .ok declared ∧ type ∈ declared.types ∧
      graph.types.get? type.id = some x ∧ function ∈ x.functions ∧ node ∈ type.functionNodes ∧
      node.childOfKind? .block = some block ∧ (⟨0⟩ : TypeId) ∈ type.outer ∧
      graph.types.get? ⟨0⟩ = some z ∧ (⟨0⟩ : FieldId) ∈ z.fields ∧
      graph.fields.get? ⟨0⟩ = some y ∧ (⟨0⟩ : FieldId) ∉ x.fields ∧
      block.codeNodes.countP (isUse y.name) = 2 ∧ graph.usesBy function ⟨0⟩ .read = 1 := by
  intro before source graph
  have hscopes : (run before).scopes.map (·.artifact?) = [some ⟨0⟩] := by decide +kernel
  obtain ⟨scope, hs, hartifact⟩ := List.map_eq_singleton_iff.1 hscopes
  have hn : (run before).project.store.graph.unitAt? source.path scope.artifact? = none := by
    rw [hartifact]
    decide +kernel
  have hpasses : (run before).scopes.all (fun scope =>
      ((run before).passes scope {} source).1.toOption.any fun declared =>
        declared.types.any fun type => type.id = ⟨1⟩ ∧ type.outer = [⟨0⟩] ∧
          type.functionNodes.head?.any fun node => (node.childOfKind? .block).any fun block =>
            block.codeNodes.countP (isUse "x") = 2 ∧
            (usesOf "x" .read false block).1.countP (fun use =>
              !use.ofThis && !use.bound && use.role.accesses.contains .read) = 1) = true := by
    decide +kernel
  have hgraph : (graph.types.get? ⟨1⟩).map (fun x => (x.fields, x.functions)) = some ([], [⟨1⟩]) ∧
      (graph.types.get? ⟨0⟩).map (·.fields) = some [⟨0⟩] ∧
      (graph.fields.get? ⟨0⟩).map (·.name) = some "x" ∧ graph.hasParameter ⟨1⟩ "x" = false ∧
      graph.seenFieldNamed? [⟨1⟩, ⟨0⟩] "x" = some ⟨0⟩ := by decide +kernel
  rw [hs, List.all_cons, Bool.and_eq_true] at hpasses
  obtain ⟨declared, hd, hany⟩ := ok_of_any hpasses.1
  obtain ⟨type, ht, hfirst⟩ := List.any_eq_true.1 hany
  obtain ⟨hid, houter, hnode⟩ := of_decide_eq_true hfirst
  obtain ⟨node, hhead, hblock⟩ := (Option.any_eq_true ..).1 hnode
  obtain ⟨block, hb, hfacts⟩ := (Option.any_eq_true ..).1 hblock
  obtain ⟨huses, hcount⟩ := of_decide_eq_true hfacts
  obtain ⟨hinner, hfields, hname, hparameter, hseen⟩ := hgraph
  obtain ⟨x, hx, hall⟩ := usesBy_outer_run before [] ⟨hs, hn⟩ hd ht
  rw [hid] at hx
  rw [hx, Option.map_some, Option.some.injEq, Prod.mk.injEq] at hinner
  obtain ⟨z, hz, hzf⟩ := Option.map_eq_some_iff.1 hfields
  obtain ⟨y, hy, hyn⟩ := Option.map_eq_some_iff.1 hname
  rw [hinner.2] at hall
  obtain ⟨hf, hm⟩ := forall₂_head hall hhead
  have hz0 : (⟨0⟩ : FieldId) ∈ z.fields := hzf ▸ List.mem_singleton_self _
  have ho0 : (⟨0⟩ : TypeId) ∈ type.outer := houter ▸ List.mem_singleton_self _
  have hx0 : (⟨0⟩ : FieldId) ∉ x.fields := hinner.1 ▸ List.not_mem_nil
  refine ⟨scope, declared, type, x, z, ⟨1⟩, node, block, y, ⟨hs, hn⟩, hd, ht, hid ▸ hx, ?_, hm, hb,
    ho0, hz, hz0, hy, hx0, ?_, ?_⟩
  · rw [hinner.2]
    exact List.mem_singleton_self _
  · rw [hyn]
    exact huses
  · have h := hf hb ho0 hz hz0 hy hx0 .read
    rw [hid, houter, hyn, hparameter, if_pos ⟨rfl, hseen⟩] at h
    exact h.trans hcount

/-- A method has a parameter that is called like a field. In an anonymous class in its block the
name is written, and counts as a read of the field. -/
theorem captured_parameter_usesField :
    let source : SourceText := ⟨"T.java", "class T \x7b int x; void m(int x) \x7b " ++
      "Object o = new Object() \x7b int f() \x7b return x; \x7d \x7d; \x7d \x7d"⟩
    let graph := (run [.addArtifact "app" [], .enter (some ⟨0⟩),
      .scan {} source.path source.text]).project.store.graph
    (OpenProject.parsed {} source).errors = [] ∧
    ∃ (outer inner : TypeNode) (field : Field) (method function : Function) (parameter : Parameter),
      graph.types.get? ⟨0⟩ = some outer ∧ outer.name.text = "T" ∧ outer.fields = [⟨0⟩] ∧
      graph.fields.get? ⟨0⟩ = some field ∧ field.name = "x" ∧ field.declaringType = ⟨0⟩ ∧
      graph.functions.get? ⟨0⟩ = some method ∧ method.declaringType = ⟨0⟩ ∧
      method.parameters = [⟨0⟩] ∧
      graph.parameters.get? ⟨0⟩ = some parameter ∧ parameter.name = "x" ∧
      graph.types.get? ⟨1⟩ = some inner ∧ inner.name.text = "T$1" ∧
      inner.declaringType = some ⟨0⟩ ∧ inner.fields = [] ∧
      graph.functions.get? ⟨1⟩ = some function ∧ function.declaringType = ⟨1⟩ ∧
      function.parameters = [] ∧ graph.usesBy ⟨1⟩ ⟨0⟩ .read = 1 := by
  intro source graph
  have h : (OpenProject.parsed {} source).errors = [] ∧
      (graph.types.get? ⟨0⟩).map (fun x => (x.name.text, x.fields)) = some ("T", [⟨0⟩]) ∧
      (graph.fields.get? ⟨0⟩).map (fun x => (x.name, x.declaringType)) = some ("x", ⟨0⟩) ∧
      (graph.functions.get? ⟨0⟩).map (fun x => (x.declaringType, x.parameters)) =
        some (⟨0⟩, [⟨0⟩]) ∧
      (graph.parameters.get? ⟨0⟩).map (·.name) = some "x" ∧
      (graph.types.get? ⟨1⟩).map (fun x => (x.name.text, x.declaringType, x.fields)) =
        some ("T$1", some ⟨0⟩, []) ∧
      (graph.functions.get? ⟨1⟩).map (fun x => (x.declaringType, x.parameters)) =
        some (⟨1⟩, []) ∧
      graph.usesBy ⟨1⟩ ⟨0⟩ .read = 1 := by decide +kernel
  obtain ⟨herrors, houter, hfield, hmethod, hparameter, hinner, hfunction, huses⟩ := h
  obtain ⟨outer, ho, heo⟩ := Option.map_eq_some_iff.1 houter
  obtain ⟨field, hf, hef⟩ := Option.map_eq_some_iff.1 hfield
  obtain ⟨method, hm, hem⟩ := Option.map_eq_some_iff.1 hmethod
  obtain ⟨parameter, hp, hep⟩ := Option.map_eq_some_iff.1 hparameter
  obtain ⟨inner, hi, hei⟩ := Option.map_eq_some_iff.1 hinner
  obtain ⟨function, hu, heu⟩ := Option.map_eq_some_iff.1 hfunction
  simp only [Prod.mk.injEq] at heo hef hem hei heu
  exact ⟨herrors, outer, inner, field, method, function, parameter, ho, heo.1, heo.2, hf, hef.1,
    hef.2, hm, hem.1, hem.2, hp, hep, hi, hei.1, hei.2.1, hei.2.2, hu, heu.1, heu.2, huses⟩

end Session

end JavaGraph
