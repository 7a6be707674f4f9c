import JavaGraph.Proofs.Scan.Alike
/-!
# Two scans in tandem

Two scans of one file take the same steps, but from different states. `Tandem` says what relates
the states and the identifiers on both sides; `Tandem.Lawful` lists the primitive steps that have to
keep it. That whole scans keep it then is shown once, for all relations.

What is known grows while the scans run: a world stands for what is known at one moment, and what
is related in a world is related in all later ones.
-/

/-!
## Sites of anonymous classes

Whatever the tree of a file looks like, the sites found in it are of two kinds: those of anonymous
classes are class bodies with a base and a number and no name, and all others have a name and no
base.
-/

namespace JavaGraph.Site

/-- Every site of an anonymous class is a class body with a number and no name, and so are those
within it. -/
inductive Numbered : Site → Prop where
  | mk {site : Site}
      (anonymous : site.base?.isSome →
        site.name? = none ∧ site.number?.isSome ∧ site.node.kind = .classBody)
      (within : ∀ inner ∈ site.within, inner.Numbered) : Numbered site

private theorem append {a b : List Site} (ha : ∀ site ∈ a, site.Numbered)
    (hb : ∀ site ∈ b, site.Numbered) : ∀ site ∈ a ++ b, site.Numbered := by
  intro site h
  rcases List.mem_append.1 h with h | h
  · exact ha site h
  · exact hb site h

private theorem single {site : Site} (h : site.Numbered) : ∀ other ∈ [site], other.Numbered := by
  intro other ho
  rw [List.mem_singleton.1 ho]
  exact h

private theorem named (token : Token) (number? : Option Nat) (node : Tree) {within : List Site}
    (h : ∀ site ∈ within, site.Numbered) :
    ∀ site ∈ [(⟨some token, number?, none, node, within⟩ : Site)], site.Numbered :=
  single (.mk (fun h => absurd h Bool.false_ne_true) h)

private theorem anonymous (number : Nat) (base : AnonymousBase) {children : List Tree} {body : Tree}
    {within : List Site} (hb : classBody? children = some body)
    (h : ∀ site ∈ within, site.Numbered) :
    ∀ site ∈ [(⟨none, some number, some base, body, within⟩ : Site)], site.Numbered := by
  unfold classBody? at hb
  have hk : body.kind = .classBody := by simpa using List.find?_some hb
  exact single (.mk (fun _ => ⟨rfl, rfl, hk⟩) h)

mutual

private theorem numbered_ofMembers (numbering : Numbering) :
    ∀ nodes, ∀ site ∈ (ofMembers numbering nodes).1, site.Numbered
  | [] => by simp [ofMembers]
  | member :: rest => by
    rw [ofMembers]
    exact append (numbered_ofMember numbering member) (numbered_ofMembers _ rest)

private theorem numbered_ofMember (numbering : Numbering) :
    ∀ node, ∀ site ∈ (ofMember numbering node).1, site.Numbered
  | .error _ _ => by simp [ofMember]
  | .node kind anchor extent comments children => by
    have hbody := numbered_ofFirstBody (Tree.bodyKind children) children
    have hclass := numbered_ofFirstBody .classBody children
    have harguments := numbered_ofFirstArguments numbering children
    have hcode := numbered_ofCode numbering children
    rw [ofMember]
    split
    · split
      · simp
      · exact named _ _ _ hbody
    · split
      · cases hsites : ofFirstArguments numbering children with
        | mk sites after =>
          rw [hsites] at harguments
          dsimp only
          split
          · exact harguments
          · next body hb => exact append harguments (anonymous _ _ hb hclass)
      · split
        · simp
        · exact hcode

private theorem numbered_ofCode (numbering : Numbering) :
    ∀ nodes, ∀ site ∈ (ofCode numbering nodes).1, site.Numbered
  | [] => by simp [ofCode]
  | node :: rest => by
    rw [ofCode]
    exact append (numbered_ofCodeNode numbering node) (numbered_ofCode _ rest)

private theorem numbered_ofCodeNode (numbering : Numbering) :
    ∀ node, ∀ site ∈ (ofCodeNode numbering node).1, site.Numbered
  | .error _ _ => by simp [ofCodeNode]
  | .node kind anchor extent comments children => by
    have hbody := numbered_ofFirstBody (Tree.bodyKind children) children
    have hclass := numbered_ofFirstBody .classBody children
    have hcode := fun numbering => numbered_ofCode numbering children
    rw [ofCodeNode]
    split
    · split
      · simp
      · exact named _ _ _ hbody
    · split
      · split
        · next base body _ hb => exact append (anonymous _ _ hb hclass) (hcode _)
        · exact hcode _
      · split
        · simp
        · exact hcode _

private theorem numbered_ofFirstBody (bodyKind : NodeKind) :
    ∀ nodes, ∀ site ∈ ofFirstBody bodyKind nodes, site.Numbered
  | [] => by simp [ofFirstBody]
  | .node kind _ _ _ members :: rest => by
    have hmembers := numbered_ofMembers {} members
    have hrest := numbered_ofFirstBody bodyKind rest
    rw [ofFirstBody]
    split
    · exact hmembers
    · exact hrest
  | .error _ _ :: rest => by
    rw [ofFirstBody]
    exact numbered_ofFirstBody bodyKind rest

private theorem numbered_ofFirstArguments (numbering : Numbering) :
    ∀ nodes, ∀ site ∈ (ofFirstArguments numbering nodes).1, site.Numbered
  | [] => by simp [ofFirstArguments]
  | .node kind _ _ _ arguments :: rest => by
    have harguments := numbered_ofCode numbering arguments
    have hrest := numbered_ofFirstArguments numbering rest
    rw [ofFirstArguments]
    split
    · exact harguments
    · exact hrest
  | .error _ _ :: rest => by
    rw [ofFirstArguments]
    exact numbered_ofFirstArguments numbering rest

end

/-- All sites of a file are numbered. -/
theorem numbered_ofTree {root : Tree} {site : Site} (h : site ∈ ofTree root) : site.Numbered := by
  unfold ofTree at h
  obtain ⟨node, hm, hs⟩ := List.mem_filterMap.1 h
  unfold ofTopLevel? at hs
  split at hs
  · obtain ⟨name, hn, rfl⟩ := Option.map_eq_some_iff.1 hs
    exact named _ _ _ (numbered_ofFirstBody _ _) _ (List.mem_singleton.2 rfl)
  · cases hs

end JavaGraph.Site

/-! ## Tandems -/

namespace JavaGraph

open List (Forall₂)
open ReferenceSite (ParameterHead)

namespace ReferenceSite

/-- The name that written segments stand for; none and malformed ones stand for nothing. -/
def referent? (site : ReferenceSite) (segments : List Token) : Option QualifiedName :=
  match segments with
  | [] => none
  | first :: rest =>
    (site.declared.qualify site.owner ((first :: rest).map (·.text))).toOption

/-- The name of the declared type that a type reference refers to: primitive types and type
parameters have none. -/
def baseName? (site : ReferenceSite) (typeVariables : List String) (node : Tree) :
    Option QualifiedName :=
  if (Mention.primitive? node).isSome || site.isVariable typeVariables node.identifiers then none
  else site.referent? node.identifiers

end ReferenceSite

/-- What relates two scans of one file. -/
structure Tandem where
  World : Type
  le : World → World → Prop
  Holds : World → ScanState → ScanState → Prop
  source : SourceUnit
  source' : SourceUnit
  type : World → TypeId → TypeId → Prop
  /-- The fields of a type of the first file and of the one it is related to. -/
  field : World → TypeId → FieldId → FieldId → Prop
  function : World → TypeId → FunctionId → FunctionId → Prop
  /-- The types that both files declare. -/
  owner : World → DeclaredType → DeclaredType → Prop
  /-- The types that the first scan has for names. -/
  named : World → QualifiedName → TypeId → Prop
  /-- What the first file may declare. -/
  among : Declarations → Prop
  /-- The types of the first file whose supertypes are recorded. -/
  recorded : World → DeclaredType → Prop
  /-- The names that the first scan may declare without being on its own from then on. -/
  admits : QualifiedName → Prop
  /-- Whether the scans may fail, both at the same step. -/
  mayFail : Prop

namespace Tandem

variable {T : Tandem} {α β γ δ : Type}

/-- What two steps give: related states, and related results or two failures. -/
def Outcome (T : Tandem) (w : T.World) (V : T.World → α → β → Prop)
    (left : Except GraphError α × ScanState) (right : Except GraphError β × ScanState) : Prop :=
  ∃ w', T.le w w' ∧ T.Holds w' left.2 right.2 ∧
    match left.1, right.1 with
    | .ok x, .ok y => V w' x y
    | .error _, .error _ => T.mayFail
    | _, _ => False

/-- Two actions that keep the scans related from a world on. -/
def Runs (T : Tandem) (w : T.World) (V : T.World → α → β → Prop) (left : ScanAction α)
    (right : ScanAction β) : Prop :=
  ∀ s t, T.Holds w s t → T.Outcome w V (left s) (right t)

/-- Nothing is said of the results. -/
def Done (T : Tandem) : T.World → Unit → Unit → Prop := fun _ _ _ => True

/-- What is declared has admitted names; a failure tells nothing, so all names have to be. -/
def Admits (T : Tandem) (declared : α → List DeclaredType) : Except GraphError α → Prop
  | .ok value => ∀ type ∈ declared value, T.admits type.name
  | .error _ => ∀ name, T.admits name

/-- References are written at related types of the same file. -/
structure Sites (T : Tandem) (w : T.World) (site site' : ReferenceSite) : Prop where
  source : site.source = T.source
  source' : site'.source = T.source'
  among : T.among site.declared
  declared : Declarations.Alike (T.owner w) site.declared site'.declared
  owner : T.owner w site.owner site'.owner

/-- Related types that stand for the same name, or none if there is no name. -/
inductive Referred (T : Tandem) (w : T.World) :
    Option QualifiedName → Option TypeId → Option TypeId → Prop where
  | none : Referred T w none none none
  | some {name : QualifiedName} {a b : TypeId} :
      T.type w a b → T.named w name a → Referred T w (some name) (some a) (some b)

/-- Related types, whatever they stand for. -/
theorem Referred.rel {w : T.World} {name : Option QualifiedName} {a b : Option TypeId}
    (h : Referred T w name a b) : Option.Rel (T.type w) a b := by
  cases h with
  | none => exact .none
  | some hab _ => exact .some hab

/-- An anonymous class whose base is no declared type has no supertypes. -/
def Baseless (site : ReferenceSite) (superclass : Option TypeId) (interfaces : List TypeId) :
    Prop :=
  ∀ node, site.owner.node.kind = .classBody → site.owner.site.base? = some (.typeRef node) →
    site.baseName? [] node = none ∧ superclass = none ∧ interfaces = []

/-- The superclass and the interfaces that an anonymous class has by its base. -/
def onBase (kind : Option TypeKind) (base : TypeId) : Option TypeId × List TypeId :=
  if kind = some .interfaceType then (none, [base]) else (some base, [])

/-- Record the base of an anonymous class, of whatever kind it is known to be. -/
def recordBase (owner base : TypeId) : ScanAction Unit := do
  let node ← ScanState.readGraph fun graph => graph.types.get base
  ScanState.onGraph <| Graph.updateType owner fun type =>
    { type with superclass := (onBase node.kind base).1, interfaces := (onBase node.kind base).2 }

/-- The primitive steps that read declarations and bodies keep the scans related. -/
structure Lawful (T : Tandem) : Prop where
  refl : ∀ w, T.le w w
  trans : ∀ {u v w}, T.le u v → T.le v w → T.le u w
  type_mono : ∀ {w w' a b}, T.le w w' → T.type w a b → T.type w' a b
  field_mono : ∀ {w w' id a b}, T.le w w' → T.field w id a b → T.field w' id a b
  function_mono : ∀ {w w' id a b}, T.le w w' → T.function w id a b → T.function w' id a b
  owner_mono : ∀ {w w' a b}, T.le w w' → T.owner w a b → T.owner w' a b
  named_mono : ∀ {w w' name a}, T.le w w' → T.named w name a → T.named w' name a
  recorded_mono : ∀ {w w' a}, T.le w w' → T.recorded w a → T.recorded w' a
  injective : ∀ {w s t}, T.Holds w s t → Injective (T.type w)
  alike : ∀ {w a b}, T.owner w a b → DeclaredType.Alike (T.type w) a b
  known : ∀ {w s t a b}, T.Holds w s t → T.type w a b →
    (∃ x, s.store.graph.types.get? a = some x) ∧ ∃ y, t.store.graph.types.get? b = some y
  display : ∀ {w s t a b}, T.Holds w s t → TypeUse.Alike (T.type w) a b →
    a.display s.store.graph = b.display t.store.graph
  report : ∀ {w} line column text, T.Runs w T.Done
    (ScanState.report ⟨T.source.file, line, column, .malformedName text⟩)
    (ScanState.report ⟨T.source'.file, line, column, .malformedName text⟩)
  resolve : ∀ {w site site'} name place, T.Sites w site site' →
    T.Runs w (fun w a b => T.type w a b ∧ T.named w name a) (site.resolve name place)
      (site'.resolve name place)
  note : ∀ {w owner owner' a b}, T.owner w owner owner' → T.type w a b →
    T.Runs w T.Done (ScanState.noteDependency owner.id a) (ScanState.noteDependency owner'.id b)
  supertypes : ∀ {w site site' superclass superclass' interfaces interfaces'},
    T.Sites w site site' → Baseless site superclass interfaces →
    Option.Rel (T.type w) superclass superclass' → Forall₂ (T.type w) interfaces interfaces' →
    T.Runs w (fun w _ _ => T.recorded w site.owner)
      (ScanState.onGraph <| Graph.updateType site.owner.id fun type =>
        { type with superclass, interfaces })
      (ScanState.onGraph <| Graph.updateType site'.owner.id fun type =>
        { type with superclass := superclass', interfaces := interfaces' })
  base : ∀ {w site site' node name a b}, T.Sites w site site' →
    site.owner.site.base? = some (.typeRef node) → site.baseName? [] node = some name →
    T.type w a b → T.named w name a →
    T.Runs w (fun w _ _ => T.recorded w site.owner) (recordBase site.owner.id a)
      (recordBase site'.owner.id b)
  addField : ∀ {w owner owner' a b}, T.owner w owner owner' → a.declaringType = owner.id →
    b.declaringType = owner'.id → Field.Alike (T.type w) a b →
    T.Runs w (T.field · owner.id) (ScanState.onGraph (Graph.addField a))
      (ScanState.onGraph (Graph.addField b))
  addFunction : ∀ {w owner owner' a b heads heads'}, T.owner w owner owner' →
    a.declaringType = owner.id → b.declaringType = owner'.id → a.parameters = [] →
    b.parameters = [] → Function.Alike (T.type w) a b →
    Forall₂ (ParameterHead.Alike (T.type w)) heads heads' →
    T.Runs w (T.function · owner.id)
      (ScanState.onGraph do
        let id ← Graph.addFunction a
        ReferenceSite.addParameters id heads
        return id)
      (ScanState.onGraph do
        let id ← Graph.addFunction b
        ReferenceSite.addParameters id heads'
        return id)
  flush : ∀ {w accesses accesses'},
    Forall₂ (Access.Seen (T.owner w) (T.field w) (T.function w)) accesses accesses' →
    T.Runs w T.Done (ScanState.flush accesses) (ScanState.flush accesses')

/-- The primitive steps that declare types keep the scans related as well. -/
structure Declaring (T : Tandem) : Prop extends T.Lawful where
  declareAs : ∀ {w s t outer outer'} {site : Site} {package name}, site.Numbered →
    site.qualifiedName package outer = .ok name →
    Option.Rel (T.owner w) outer outer' → T.Holds w s t →
    T.Admits Option.toList (site.declareAs T.source outer name s).1 →
    T.Outcome w (fun w => Option.Rel (T.owner w)) (site.declareAs T.source outer name s)
      (site.declareAs T.source' outer' name t)
  setMainType : ∀ {w owner owner'}, T.owner w owner owner' →
    T.Runs w T.Done (ScanState.onGraph (Graph.setMainType T.source.unit owner.id))
      (ScanState.onGraph (Graph.setMainType T.source'.unit owner'.id))

/-! ### Actions put together -/

/-- Steps in sequence. -/
theorem Outcome.bind {w : T.World} {V : T.World → α → β → Prop} {U : T.World → γ → δ → Prop}
    {left : ScanAction α} {right : ScanAction β} {next : α → ScanAction γ}
    {next' : β → ScanAction δ} {s t : ScanState} (h : T.Outcome w V (left s) (right t))
    (ht : ∀ {u v w}, T.le u v → T.le v w → T.le u w)
    (hn : ∀ {w' x y s' t'}, T.le w w' → T.Holds w' s' t' → V w' x y →
      T.Outcome w' U (next x s') (next' y t')) :
    T.Outcome w U ((left >>= next) s) ((right >>= next') t) := by
  obtain ⟨w', hle, hs', hv⟩ := h
  simp only [Bind.bind]
  cases hl : left s with
  | mk x s' =>
    cases hr : right t with
    | mk y t' =>
      rw [hl, hr] at hv
      rw [hl, hr] at hs'
      cases x with
      | ok x =>
        cases y with
        | ok y =>
          obtain ⟨w'', hle', hs'', hu⟩ := hn hle hs' hv
          exact ⟨w'', ht hle hle', hs'', hu⟩
        | error e => exact hv.elim
      | error e =>
        cases y with
        | ok y => exact hv.elim
        | error e' => exact ⟨w', hle, hs', hv⟩

section

variable (hT : T.Lawful) {w : T.World}
include hT

/-- Nothing is done. -/
theorem runs_pure {V : T.World → α → β → Prop} {x : α} {y : β} (h : V w x y) :
    T.Runs w V (pure x) (pure y) :=
  fun _ _ hs => ⟨w, hT.refl w, hs, h⟩

/-- Actions in sequence. -/
theorem Runs.bind {V : T.World → α → β → Prop} {U : T.World → γ → δ → Prop} {left : ScanAction α}
    {right : ScanAction β} {next : α → ScanAction γ} {next' : β → ScanAction δ}
    (h : T.Runs w V left right)
    (hn : ∀ {w' x y}, T.le w w' → V w' x y → T.Runs w' U (next x) (next' y)) :
    T.Runs w U (left >>= next) (right >>= next') :=
  fun s t hs => (h s t hs).bind hT.trans fun hle hs' hv => hn hle hv _ _ hs'

/-- Results that are put into another form. -/
theorem Runs.map {V : T.World → α → β → Prop} {U : T.World → γ → δ → Prop} {left : ScanAction α}
    {right : ScanAction β} {f : α → γ} {g : β → δ} (h : T.Runs w V left right)
    (hfg : ∀ {w' x y}, T.le w w' → V w' x y → U w' (f x) (g y)) :
    T.Runs w U (do return f (← left)) (do return g (← right)) :=
  h.bind hT fun hle hv => runs_pure hT (hfg hle hv)

omit hT in
/-- What is known of the results. -/
theorem Runs.imp {V U : T.World → α → β → Prop} {left : ScanAction α} {right : ScanAction β}
    (h : T.Runs w V left right) (hVU : ∀ {w' x y}, V w' x y → U w' x y) :
    T.Runs w U left right := by
  intro s t hs
  obtain ⟨w', hle, hs', hv⟩ := h s t hs
  refine ⟨w', hle, hs', ?_⟩
  cases hl : (left s).1 <;> cases hr : (right t).1 <;> rw [hl, hr] at hv
  · exact hv
  · exact hv
  · exact hv
  · exact hVU hv

/-- Results that are not used. -/
theorem Runs.discard {V : T.World → α → β → Prop} {left : ScanAction α} {right : ScanAction β}
    (h : T.Runs w V left right) : T.Runs w T.Done (discard left) (discard right) :=
  h.bind hT fun _ _ => runs_pure hT trivial

/-- Actions for every member of two related lists. -/
theorem runs_forEach {S : α → β → Prop} {items : List α} {items' : List β}
    {f : α → ScanAction Unit} {g : β → ScanAction Unit} (h : Forall₂ S items items')
    (hf : ∀ {w' x y}, T.le w w' → S x y → T.Runs w' T.Done (f x) (g y)) :
    T.Runs w T.Done (.forEach items f) (.forEach items' g) := by
  induction h generalizing w with
  | nil => exact runs_pure hT trivial
  | cons hab hrest ih =>
    rw [Action.forEach, Action.forEach]
    refine Runs.bind hT (hf (hT.refl w) hab) fun hle _ => ?_
    exact ih fun hle' => hf (hT.trans hle hle')

/-- Actions for every member of a list. -/
theorem runs_forEach_same {items : List α} {f g : α → ScanAction Unit}
    (hf : ∀ {w' x}, T.le w w' → T.Runs w' T.Done (f x) (g x)) :
    T.Runs w T.Done (.forEach items f) (.forEach items g) :=
  runs_forEach hT (List.forall₂_refl items : Forall₂ Eq items items) fun hle hxy => by
    rw [← hxy]
    exact hf hle

/-- Actions for every member of two related lists, with their results, and what they achieve. -/
theorem runs_mapEach {S : α → β → Prop} {V : T.World → γ → δ → Prop} {U : T.World → α → Prop}
    {items : List α} {items' : List β} {f : α → ScanAction γ} {g : β → ScanAction δ}
    (h : Forall₂ S items items') (hV : ∀ {w w' x y}, T.le w w' → V w x y → V w' x y)
    (hU : ∀ {w w' x}, T.le w w' → U w x → U w' x)
    (hf : ∀ {w' x y}, T.le w w' → S x y →
      T.Runs w' (fun w a b => V w a b ∧ U w x) (f x) (g y)) :
    T.Runs w (fun w as bs => Forall₂ (V w) as bs ∧ ∀ x ∈ items, U w x) (.mapEach items f)
      (.mapEach items' g) := by
  induction h generalizing w with
  | nil => exact runs_pure hT ⟨.nil, fun _ hx => by cases hx⟩
  | cons hab hrest ih =>
    rw [Action.mapEach, Action.mapEach]
    refine Runs.bind hT (hf (hT.refl w) hab) fun hle hv => ?_
    refine Runs.bind hT (ih fun hle' => hf (hT.trans hle hle')) fun hle' hvs => ?_
    refine runs_pure hT ⟨.cons (hV hle' hv.1) hvs.1, fun x hx => ?_⟩
    rcases List.mem_cons.1 hx with rfl | hx
    · exact hU hle' hv.2
    · exact hvs.2 x hx

/-- Actions for every member of a list, with the results there are. -/
theorem runs_collect {V : T.World → γ → δ → Prop} {items : List α}
    {f : α → ScanAction (Option γ)} {g : α → ScanAction (Option δ)}
    (hV : ∀ {w w' x y}, T.le w w' → V w x y → V w' x y)
    (hf : ∀ {w' x}, T.le w w' → T.Runs w' (fun w => Option.Rel (V w)) (f x) (g x)) :
    T.Runs w (fun w => Forall₂ (V w)) (.collect items f) (.collect items g) := by
  induction items generalizing w with
  | nil => exact runs_pure hT .nil
  | cons item rest ih =>
    rw [Action.collect, Action.collect]
    refine Runs.bind hT (hf (hT.refl w)) fun hle hv => ?_
    refine Runs.bind hT (ih fun hle' => hf (hT.trans hle hle')) fun hle' hvs => ?_
    refine runs_pure hT (List.rel_append ?_ hvs)
    cases hv with
    | none => exact .nil
    | some hxy => exact .cons (hV hle' hxy) .nil

/-- What is known in a world may be used. -/
theorem runs_of_injective {V : T.World → α → β → Prop} {left : ScanAction α}
    {right : ScanAction β} (h : Injective (T.type w) → T.Runs w V left right) :
    T.Runs w V left right :=
  fun s t hs => h (hT.injective hs) s t hs

/-- What is known of a site remains known. -/
theorem Sites.mono {w' : T.World} (hle : T.le w w') {site site' : ReferenceSite}
    (h : T.Sites w site site') : T.Sites w' site site' :=
  ⟨h.source, h.source', h.among, h.declared.imp fun hab => hT.owner_mono hle hab,
    hT.owner_mono hle h.owner⟩

/-- Related uses remain related. -/
theorem use_mono {w' : T.World} (hle : T.le w w') {a b : TypeUse}
    (h : TypeUse.Alike (T.type w) a b) : TypeUse.Alike (T.type w') a b :=
  h.imp fun hab => hT.type_mono hle hab

/-- Related members remain related. -/
theorem members_mono {w' : T.World} (hle : T.le w w') {id : TypeId} {a b : MemberRecord}
    (h : MemberRecord.Alike (T.field w id) (T.function w id) a b) :
    MemberRecord.Alike (T.field w' id) (T.function w' id) a b :=
  h.imp (fun hab => hT.field_mono hle hab) fun hab => hT.function_mono hle hab

end

end Tandem

end JavaGraph
