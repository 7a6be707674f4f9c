import JavaGraph.Proofs.Graph.Upkeep
/-!
# Declarations and uses in intact graphs

What a file declares and uses leaves a graph intact as well: a placeholder becomes a declared type,
a declared type is put within another one, uses of fields come in, and so does plain text.
-/

namespace JavaGraph

namespace Graph

variable {graph after : Graph} {new : List Ref} {id outer : TypeId} {x y : TypeNode}

/-! ### Declared types -/

/-- A change that makes a described type of a placeholder, and leaves the rest alone. -/
structure Describes (unit : UnitId) (f : TypeNode → TypeNode) : Prop where
  name : ∀ x, (f x).name = x.name
  state : ∀ x, (f x).state = .complete unit
  kind : ∀ x, (f x).kind.isSome
  span : ∀ x, (f x).span.isSome
  innerTypes : ∀ x, (f x).innerTypes = x.innerTypes
  fields : ∀ x, (f x).fields = x.fields
  functions : ∀ x, (f x).functions = x.functions
  dependsOn : ∀ x, (f x).dependsOn = x.dependsOn

/-- A placeholder is within no other type. -/
theorem Intact.declaringType_eq_none (h : graph.Intact) (hx : graph.types.get? id = some x)
    (hc : x.isComplete = false) : x.declaringType = none := by
  cases hd : x.declaringType with
  | none => rfl
  | some outer =>
    obtain ⟨y, -, unit, suffix, hs, -⟩ := h.nested hx hd
    rw [TypeNode.isComplete_eq_true.2 ⟨unit, hs⟩] at hc
    cases hc

/-- A placeholder is declared at the top level of a file. -/
theorem Intact.declared (h : graph.Intact) (new : List Ref) {unit : UnitId} {f : TypeNode → TypeNode}
    (hx : graph.types.get? id = some x) (hc : x.isComplete = false) (hf : Describes unit f)
    (hd : (f x).declaringType = none) (hr : (f x).refs ⊆ x.refs ++ new)
    (hn : ∀ ref ∈ new, graph.Knows ref) :
    let after := { graph with types := graph.types.modify id f }
    after.Intact ∧ BuildsOn graph after := by
  intro after
  have hnone := h.declaringType_eq_none hx hc
  have hfound : ∀ {k y}, after.types.get? k = some y →
      k = id ∧ y = f x ∨ graph.types.get? k = some y := by
    intro k y hy
    rw [Arena.get?_modify] at hy
    split at hy
    · next hk =>
      rw [hk, hx] at hy
      cases hy
      exact .inl ⟨hk, rfl⟩
    · exact .inr hy
  have hg : BuildsOn graph after := { BuildsOn.refl graph with
    size := fun kind => by cases kind <;> simp [Graph.size, after]
    type := by
      intro k y hy
      rw [Arena.get?_modify]
      split
      · next hk =>
        rw [hk, hx] at hy
        cases hy
        refine ⟨f x, by rw [hk, hx]; rfl, hf.name x, fun other hs => ?_, fun outer ho => ?_⟩
        · rw [TypeNode.isComplete_eq_true.2 ⟨other, hs⟩] at hc
          cases hc
        · rw [hnone] at ho
          cases ho
      · exact ⟨y, hy, rfl, fun _ h => h, fun _ h => h⟩ }
  refine ⟨{ h with
    closed := closed_of_stores _ h.closed hg
      { Stores.refl _ graph with types := Arena.refs_modify id fun hy => ?_ }
      fun ref hm => (hn ref hm).mono hg
    fields := h.fields.modify_owner id hf.fields
    functions := h.functions.modify_owner id hf.functions
    innerTypes := (h.innerTypes.modify_owner id hf.innerTypes).modify_member id fun hy => ?_
    nested := fun {k y outer} hy ho => ?_
    described := fun hy => ?_
    irreflexive := fun hy => ?_
    accesses := accesses_of_buildsOn h hg }, hg⟩
  · cases hx.symm.trans hy
    exact hr
  · cases hx.symm.trans hy
    exact hd.trans hnone.symm
  · rcases hfound hy with ⟨-, rfl⟩ | hy'
    · rw [hd] at ho
      cases ho
    · exact nested_of_buildsOn h hg hy' hy ho
  · rcases hfound hy with ⟨-, rfl⟩ | hy
    · rw [hf.kind, hf.span, TypeNode.isComplete_eq_true.2 ⟨unit, hf.state x⟩]
      exact ⟨rfl, rfl⟩
    · exact h.described hy
  · rcases hfound hy with ⟨rfl, rfl⟩ | hy
    · rw [hf.dependsOn]
      exact h.irreflexive hx
    · exact h.irreflexive hy

/-- The graph in which a type is within another one. -/
def putIn (graph : Graph) (id outer : TypeId) : Graph :=
  { graph with
    types := (graph.types.modify id fun type => { type with declaringType := some outer }).modify
      outer fun type => { type with innerTypes := type.innerTypes ++ [id] } }

/-- The types are as they were up to the two entries. -/
private theorem get?_putIn (graph : Graph) (id outer k : TypeId) :
    (graph.putIn id outer).types.get? k = (graph.types.get? k).map fun type =>
      { type with
        declaringType := if k = id then some outer else type.declaringType
        innerTypes := if k = outer then type.innerTypes ++ [id] else type.innerTypes } := by
  unfold putIn
  rw [Arena.get?_modify, Arena.get?_modify]
  cases graph.types.get? k with
  | none => simp
  | some type =>
    simp only [Option.map_some]
    split_ifs <;> rfl

/-- The type is within the other one. -/
theorem declaredIn_putIn (hx : graph.types.get? id = some x) (outer : TypeId) :
    (graph.putIn id outer).DeclaredIn id outer :=
  ⟨_, (get?_putIn ..).trans (congrArg _ hx), if_pos rfl⟩

/-- A declared type is put within another one. -/
theorem Intact.putIn (h : graph.Intact) (hx : graph.types.get? id = some x)
    (hd : x.declaringType = none) (hy : graph.types.get? outer = some y) (hxy : x.NestedIn y) :
    (graph.putIn id outer).Intact ∧ BuildsOn graph (graph.putIn id outer) := by
  have hg : BuildsOn graph (graph.putIn id outer) := { BuildsOn.refl graph with
    size := fun kind => by cases kind <;> simp [Graph.size, Graph.putIn]
    type := by
      intro k z hz
      refine ⟨_, (get?_putIn ..).trans (congrArg _ hz), rfl, fun _ h => h, fun other ho => ?_⟩
      by_cases hk : k = id
      · rw [hk, hx] at hz
        cases hz
        rw [hd] at ho
        cases ho
      · simp only [hk, if_false]
        exact ho }
  have hback : ∀ {k z}, (graph.putIn id outer).types.get? k = some z →
      ∃ z₀, graph.types.get? k = some z₀ ∧ z.kind = z₀.kind ∧ z.span = z₀.span ∧
        z.state = z₀.state ∧ z.dependsOn = z₀.dependsOn ∧ z.name = z₀.name ∧
        z.declaringType = if k = id then some outer else z₀.declaringType := by
    intro k z hz
    rw [get?_putIn] at hz
    obtain ⟨z₀, hz₀, rfl⟩ := Option.map_eq_some_iff.1 hz
    exact ⟨z₀, hz₀, rfl, rfl, rfl, rfl, rfl, rfl⟩
  refine ⟨{ h with
    closed := ?_
    fields := ?_
    functions := ?_
    innerTypes := ?_
    nested := fun {k z other} hz ho => ?_
    described := fun hz => ?_
    irreflexive := fun hz => ?_
    accesses := accesses_of_buildsOn h hg }, hg⟩
  · have hdeclaring : ∀ {type : TypeNode}, { type with declaringType := some outer }.refs ⊆
        type.refs ++ refsOf [id, outer] := by
      intro type ref
      simp only [TypeNode.refs, refsOf, List.mem_append, Option.toList_some, List.map_cons,
        List.map_nil, List.mem_cons, List.not_mem_nil, or_false]
      tauto
    have hinner : ∀ {type : TypeNode}, { type with innerTypes := type.innerTypes ++ [id] }.refs ⊆
        type.refs ++ refsOf [id, outer] := by
      intro type ref
      simp only [TypeNode.refs, refsOf, List.map_append, List.mem_append, List.map_cons,
        List.map_nil, List.mem_cons, List.not_mem_nil, or_false]
      tauto
    refine closed_of_stores (refsOf [id, outer]) h.closed hg
      { Stores.refl _ graph with types := ?_ } fun ref hm => ?_
    · intro ref hr
      rcases List.mem_append.1 (Arena.refs_modify outer (fun _ => hinner) hr) with hr | hr
      · exact Arena.refs_modify id (fun _ => hdeclaring) hr
      · exact List.mem_append_right _ hr
    · obtain ⟨k, hk, rfl⟩ := mem_refsOf.1 hm
      rcases List.mem_cons.1 hk with rfl | hk
      · exact (knows_of_get? hx).mono hg
      · rw [List.mem_singleton.1 hk]
        exact (knows_of_get? hy).mono hg
  · have hl := h.fields.modify_owner id (f := fun type => { type with declaringType := some outer })
      fun _ => rfl
    exact hl.modify_owner outer fun _ => rfl
  · have hl := h.functions.modify_owner id
      (f := fun type => { type with declaringType := some outer }) fun _ => rfl
    exact hl.modify_owner outer fun _ => rfl
  · have hlists := (h.innerTypes.modify_owner id
      (f := fun type => { type with declaringType := some outer }) fun _ => rfl).adopt hx hd
      (k := outer) (g := fun type => { type with declaringType := some outer })
      (f := fun type => { type with innerTypes := type.innerTypes ++ [id] }) rfl fun _ => rfl
    exact hlists.modify_member outer fun _ => rfl
  · obtain ⟨z₀, hz₀, -, -, hs, -, hn, hdz⟩ := hback hz
    by_cases hk : k = id
    · rw [hdz, if_pos hk] at ho
      cases ho
      rw [hk, hx] at hz₀
      cases hz₀
      obtain ⟨y', hy', hny, hsy, -⟩ := hg.type hy
      obtain ⟨unit, suffix, hsx, hsy₀, hne, hname⟩ := hxy
      exact ⟨y', hy', unit, suffix, hs.trans hsx, hsy unit hsy₀, hne, by rw [hn, hny, hname]⟩
    · rw [hdz, if_neg hk] at ho
      exact nested_of_buildsOn h hg hz₀ hz ho
  · obtain ⟨z₀, hz₀, hkind, hspan, hs, -⟩ := hback hz
    rw [hkind, hspan, TypeNode.isComplete, hs]
    exact h.described hz₀
  · obtain ⟨z₀, hz₀, -, -, -, hdep, -⟩ := hback hz
    rw [hdep]
    exact h.irreflexive hz₀

/-- A unit lists a type that it declares, and no unit requires the type any more. -/
theorem Intact.listed (h : graph.Intact) (hid : graph.Knows ⟨.type, id⟩) (unit : UnitId) :
    let after := { graph.released id with
      units := (graph.released id).units.modify unit fun node =>
        { node with declaredTypes := node.declaredTypes ++ [id] } }
    after.Intact ∧ BuildsOn graph after := by
  intro after
  obtain ⟨hi, hg⟩ := h.released id
  have hknown : ∀ ref ∈ refsOf [id], (graph.released id).Knows ref := by
    intro ref hm
    obtain ⟨k, hm, rfl⟩ := mem_refsOf.1 hm
    rw [List.mem_singleton.1 hm]
    exact hid.mono hg
  obtain ⟨hi', hg'⟩ := hi.unitChanged unit _ (fun _ => rfl) (fun {x} _ ref => by
    simp only [CompilationUnit.refs, refsOf, List.map_append, List.mem_append]
    tauto) hknown (f := fun node => { node with declaredTypes := node.declaredTypes ++ [id] })
  exact ⟨hi', hg.trans hg'⟩

/-! ### Uses of fields -/

/-- A function uses a field of its type or of a type around it. -/
theorem Intact.withAccess (h : graph.Intact) {access : Access} {function : Function}
    {field : Field} (hf : graph.functions.get? access.function = some function)
    (hd : graph.fields.get? access.field = some field)
    (ha : graph.Around field.declaringType function.declaringType) :
    (graph.withAccess access).Intact ∧ BuildsOn graph (graph.withAccess access) := by
  have hg : BuildsOn graph (graph.withAccess access) := { BuildsOn.refl graph with }
  refine ⟨{ h with
    closed := closed_of_stores access.refs h.closed hg
      { Stores.refl _ graph with accesses := ?_ } ?_
    accesses := fun hm => ?_ }, hg⟩
  · simp [Graph.withAccess]
  · intro ref hm
    simp only [Access.refs, List.mem_append, mem_refsOf, List.mem_singleton, exists_eq_left] at hm
    rcases hm with rfl | rfl
    · exact Arena.lt_size_of_get? hf
    · exact Arena.lt_size_of_get? hd
  · simp only [Graph.withAccess, Array.toList_push, List.mem_append, List.mem_singleton] at hm
    rcases hm with hm | rfl
    · exact h.accesses hm
    · exact ⟨function, field, hf, hd, ha⟩

/-! ### Plain text -/

/-- A new text file has no lines. -/
theorem Intact.withTextFile (h : graph.Intact) (path : String) :
    Intact { graph with textFiles := graph.textFiles.push { path } } := by
  have hg : BuildsOn graph { graph with textFiles := graph.textFiles.push { path } } :=
    { BuildsOn.refl graph with size := fun kind => by cases kind <;> simp [Graph.size] }
  exact { h with
    closed := closed_of_stores _ h.closed hg
      { Stores.refl _ graph with textFiles := Arena.refs_push (List.nil_subset []) }
      fun _ hm => (List.not_mem_nil hm).elim }

/-- A line is followed by a known one. -/
theorem Intact.updateLine (h : graph.Intact) (line : LineId) {next : LineId}
    (hn : graph.Knows ⟨.line, next⟩) :
    (Graph.updateLine line (fun line => { line with next := some next }) graph).2.Intact := by
  unfold Graph.updateLine Action.tryChange
  cases hl : graph.lines.get? line with
  | none => 
    have he := Arena.update_eq_error_iff (f := fun line : Line => { line with next := some next })
      |>.2 ⟨hl, rfl⟩
    simp only [he, Bind.bind, Except.bind]
    exact h
  | some node =>
    simp only [Arena.update_of_get? _ hl, Bind.bind, Except.bind, pure, Except.pure]
    have hg : BuildsOn graph { graph with
        lines := graph.lines.modify line fun line => { line with next := some next } } :=
      { BuildsOn.refl graph with size := fun kind => by cases kind <;> simp [Graph.size] }
    refine { h with
      closed := closed_of_stores (refsOf [next]) h.closed hg
        { Stores.refl _ graph with lines := Arena.refs_modify _ fun _ ref => ?_ } fun ref hm => ?_ }
    · simp only [Line.refs, Option.toList_some, List.mem_append]
      tauto
    · obtain ⟨id, hm, rfl⟩ := mem_refsOf.1 hm
      rw [List.mem_singleton.1 hm]
      exact hn.mono hg

/-- A line comes into a known file. -/
theorem Intact.withLine (h : graph.Intact) (line : Line) (hf : graph.Knows ⟨.textFile, line.file⟩)
    (hn : line.next = none) :
    let after := { graph with
      textFiles := graph.textFiles.modify line.file fun node =>
        { node with lines := node.lines ++ [graph.lines.nextId] }
      lines := graph.lines.push line }
    after.Intact ∧ after.Knows ⟨.line, graph.lines.nextId⟩ := by
  intro after
  have hg : BuildsOn graph after :=
    { BuildsOn.refl graph with size := fun kind => by cases kind <;> simp [Graph.size, after] }
  have hself : after.Knows ⟨.line, graph.lines.nextId⟩ :=
    Arena.lt_size_of_get? ((Arena.get?_push ..).trans (if_pos rfl))
  refine ⟨{ h with
    closed := closed_of_stores (refsOf [graph.lines.nextId] ++ line.refs) h.closed hg
      { Stores.refl _ graph with
        textFiles := Arena.refs_modify _ fun _ ref => ?_
        lines := Arena.refs_push (List.subset_append_right ..) } fun ref hm => ?_ }, hself⟩
  · simp only [TextFile.refs, refsOf, List.map_append, List.mem_append]
    tauto
  · simp only [Line.refs, hn, List.mem_append, mem_refsOf, List.mem_singleton, exists_eq_left,
      Option.toList_none, List.not_mem_nil, false_and, exists_false, or_false] at hm
    rcases hm with rfl | rfl
    · exact hself
    · exact hf.mono hg

/-- A known text file is passed on. -/
theorem checkTextFile_bind {β : Type} {file : TextFileId} {node : TextFile}
    {next : TextFile → GraphAction β} (h : graph.textFiles.get? file = some node) :
    ((Action.check fun graph : Graph => graph.textFiles.get file) >>= next) graph =
      next node graph :=
  Action.check_bind (f := fun graph : Graph => graph.textFiles.get file) (by simp [Arena.get, h])

/-- A known text file is changed. -/
theorem updateTextFile_known {file : TextFileId} {node : TextFile}
    (f : TextFile → TextFile) (h : graph.textFiles.get? file = some node) :
    updateTextFile file f graph =
      (.ok (), { graph with textFiles := graph.textFiles.modify file f }) := by
  simp [updateTextFile, Action.tryChange, Arena.update_of_get? f h, Bind.bind, Except.bind, pure,
    Except.pure]

/-- A new line belongs to its file, and the line before it leads there. -/
theorem Intact.addLine (h : graph.Intact) (file : TextFileId) (text : String) :
    (Graph.addLine file text graph).2.Intact := by
  unfold Graph.addLine
  rw [Action.read_bind]
  cases hf : graph.textFiles.get? file with
  | none =>
    rw [Action.bind_of_error (by rw [Action.check, Arena.get, hf])]
    exact h
  | some node =>
    let line : Line := { file, number := node.lines.length, text }
    obtain ⟨hi, hk⟩ := h.withLine line (Arena.lt_size_of_get? hf) rfl
    rw [checkTextFile_bind hf, Action.bind_of_ok (updateTextFile_known _ hf),
      Action.change_bind]
    cases node.lines.getLast? with
    | none => exact hi
    | some previous =>
      have hnext := hi.updateLine previous hk
      simp only
      generalize hu : Graph.updateLine previous _ _ = after at hnext
      obtain ⟨result, last⟩ := after
      cases result with
      | ok value =>
        rw [Action.bind_of_ok hu]
        exact hnext
      | error e =>
        rw [Action.bind_of_error hu]
        exact hnext

end Graph

end JavaGraph
