import JavaGraph.Proofs.Action
import JavaGraph.Proofs.Graph.Lifecycle
import JavaGraph.Scan.Source
/-!
# What every step of a scan keeps

A scan of a unit resolves, requires and declares names in the open scope, changes what is recorded
of types without touching names and states, and takes notes. A relation between states that these
primitive steps keep is kept by the whole scan, whether it succeeds or fails. Instance search
follows the steps.
-/

namespace JavaGraph

open JavaGraph.Action

/-! ### Changes of the graph that do not touch the ledger -/

namespace Graph

/-- A change of types that leaves names and states alone. -/
theorem keeps_updateType (id : TypeId) (f : TypeNode → TypeNode)
    (hf : ∀ type, (f type).ledger = type.ledger ∧ (f type).state = type.state) :
    Keeps SameLedger (updateType id f) := by
  constructor
  intro graph
  cases ht : graph.types.get? id with
  | none =>
    have he : graph.types.update id f = .error (.unknownId .type id.index) :=
      Arena.update_eq_error_iff.2 ⟨ht, rfl⟩
    simp only [updateType, tryChange, he, bind, Except.bind]
    exact Guarantee.refl graph
  | some type =>
    rw [updateType_known f ht]
    refine ⟨?_, ?_, fun _ => rfl, rfl, rfl⟩
    · intro k
      simp only
      rw [Arena.get?_modify]
      split
      · cases graph.types.get? k with
        | none => rfl
        | some old => simp [(hf old).1]
      · rfl
    · intro k x unit hx hr
      simp only at hx
      rw [Arena.get?_modify] at hx
      split at hx
      · obtain ⟨old, ho, rfl⟩ := Option.map_eq_some_iff.1 hx
        exact ⟨old, ho, by rwa [(hf old).2] at hr⟩
      · exact ⟨x, hx, hr⟩

/-- A change of units that leaves alone what they declare and require. -/
theorem keeps_updateUnit (id : UnitId) (f : CompilationUnit → CompilationUnit)
    (hf : ∀ unit, (f unit).ledger = unit.ledger) : Keeps SameLedger (updateUnit id f) := by
  constructor
  intro graph
  cases hu : graph.units.get? id with
  | none =>
    have he : graph.units.update id f = .error (.unknownId .unit id.index) :=
      Arena.update_eq_error_iff.2 ⟨hu, rfl⟩
    simp only [updateUnit, tryChange, he, bind, Except.bind]
    exact Guarantee.refl graph
  | some unit =>
    rw [updateUnit_known f hu]
    refine ⟨fun _ => rfl, fun hx hr => ⟨_, hx, hr⟩, ?_, rfl, rfl⟩
    intro k
    simp only
    rw [Arena.get?_modify]
    split
    · cases graph.units.get? k with
      | none => rfl
      | some old => simp [hf old]
    · rfl

/-- A change of anything else. -/
theorem keeps_change (f : Graph → Graph) (hf : ∀ graph, SameLedger graph (f graph)) :
    Keeps SameLedger (change f : GraphAction Unit) :=
  ⟨hf⟩

instance (id : FunctionId) (f : Function → Function) : Keeps SameLedger (updateFunction id f) := by
  constructor
  intro graph
  cases h : graph.functions.update id f with
  | error e =>
    simp only [updateFunction, tryChange, h, bind, Except.bind]
    exact Guarantee.refl graph
  | ok functions =>
    simp only [updateFunction, tryChange, h, bind, Except.bind, pure, Except.pure]
    exact SameLedger.of_eq rfl rfl rfl rfl

instance (unit : UnitId) (type : TypeId) : Keeps SameLedger (setMainType unit type) := by
  have := keeps_updateUnit unit (fun node => { node with mainType := some type }) fun _ => rfl
  unfold setMainType
  infer_instance

instance (field : Field) : Keeps SameLedger (addField field) := by
  have := fun id : FieldId => keeps_updateType field.declaringType
    (fun node => { node with fields := node.fields ++ [id] }) fun _ => ⟨rfl, rfl⟩
  have := keeps_change (fun graph => { graph with fields := graph.fields.push field })
    fun _ => SameLedger.of_eq rfl rfl rfl rfl
  unfold addField
  infer_instance

instance (function : Function) : Keeps SameLedger (addFunction function) := by
  have := fun id : FunctionId => keeps_updateType function.declaringType
    (fun node => { node with functions := node.functions ++ [id] }) fun _ => ⟨rfl, rfl⟩
  have := keeps_change (fun graph => { graph with functions := graph.functions.push function })
    fun _ => SameLedger.of_eq rfl rfl rfl rfl
  unfold addFunction
  infer_instance

instance (parameter : Parameter) : Keeps SameLedger (addParameter parameter) := by
  have := keeps_change (fun graph => { graph with parameters := graph.parameters.push parameter })
    fun _ => SameLedger.of_eq rfl rfl rfl rfl
  unfold addParameter
  infer_instance

instance (access : Access) : Keeps SameLedger (addAccess access) := by
  have := keeps_change (fun graph => { graph with accesses := graph.accesses.push access })
    fun _ => SameLedger.of_eq rfl rfl rfl rfl
  unfold addAccess
  infer_instance

/-! ### Changes of the graph that do not touch units -/

/-- The units are as they were. -/
def SameUnits (before after : Graph) : Prop := after.units = before.units

instance : Action.Guarantee SameUnits where
  refl _ := rfl
  trans h h' := h'.trans h

instance (id : TypeId) (f : TypeNode → TypeNode) : Keeps SameUnits (updateType id f) := by
  constructor
  intro graph
  cases h : graph.types.update id f <;>
    simp only [updateType, tryChange, h, bind, Except.bind, pure, Except.pure] <;> rfl

instance (id : FunctionId) (f : Function → Function) : Keeps SameUnits (updateFunction id f) := by
  constructor
  intro graph
  cases h : graph.functions.update id f <;>
    simp only [updateFunction, tryChange, h, bind, Except.bind, pure, Except.pure] <;> rfl

/-- A change of anything but units. -/
theorem sameUnits_change (f : Graph → Graph) (hf : ∀ graph, (f graph).units = graph.units) :
    Keeps SameUnits (change f : GraphAction Unit) :=
  ⟨hf⟩

instance (field : Field) : Keeps SameUnits (addField field) := by
  have := sameUnits_change (fun graph => { graph with fields := graph.fields.push field })
    fun _ => rfl
  unfold addField
  infer_instance

instance (function : Function) : Keeps SameUnits (addFunction function) := by
  have := sameUnits_change
    (fun graph => { graph with functions := graph.functions.push function }) fun _ => rfl
  unfold addFunction
  infer_instance

instance (parameter : Parameter) : Keeps SameUnits (addParameter parameter) := by
  have := sameUnits_change
    (fun graph => { graph with parameters := graph.parameters.push parameter }) fun _ => rfl
  unfold addParameter
  infer_instance

instance (access : Access) : Keeps SameUnits (addAccess access) := by
  have := sameUnits_change (fun graph => { graph with accesses := graph.accesses.push access })
    fun _ => rfl
  unfold addAccess
  infer_instance

end Graph

instance (dependency : TypeId × TypeId) :
    Keeps Graph.SameLedger (ScanState.addDependency dependency) := by
  apply Graph.keeps_updateType
  intro type
  split <;> exact ⟨rfl, rfl⟩

instance (dependency : TypeId × TypeId) :
    Keeps Graph.SameUnits (ScanState.addDependency dependency) := by
  unfold ScanState.addDependency
  infer_instance

instance (function : FunctionId) (heads : List ReferenceSite.ParameterHead) :
    Keeps Graph.SameLedger (ReferenceSite.addParameters function heads) := by
  unfold ReferenceSite.addParameters
  infer_instance

instance (function : FunctionId) (heads : List ReferenceSite.ParameterHead) :
    Keeps Graph.SameUnits (ReferenceSite.addParameters function heads) := by
  unfold ReferenceSite.addParameters
  infer_instance

/-! ### The primitive steps -/

/-- Whether the finding is that the store did not answer. -/
def Diagnostic.isLookupFailure (diagnostic : Diagnostic) : Bool :=
  match diagnostic.finding with
  | .lookupFailed _ => true
  | _ => false

namespace ScanState

/-- A relation between states that the primitive steps keep in which a unit refers to types. -/
class Refers (unit : UnitId) (R : ScanState → ScanState → Prop) : Prop where
  /-- What is said about the file. -/
  report : ∀ diagnostic, Keeps R (report diagnostic)
  /-- A reference between types that is kept back. -/
  note : ∀ source target, Keeps R (noteDependency source target)
  resolve : ∀ name, Keeps R (inScope (·.resolve name unit))
  require : ∀ name, Keeps R (inScope (·.require name unit))

/-- A relation between states that the steps keep in which a unit refers to types. What is asked of
the scope for one reference may keep it together only. -/
class Answering (unit : UnitId) (R : ScanState → ScanState → Prop) : Prop where
  report : ∀ diagnostic, Keeps R (report diagnostic)
  note : ∀ source target, Keeps R (noteDependency source target)
  answer : ∀ (site : ReferenceSite) name place, site.source.unit = unit →
    Keeps R (site.resolve name place)

/-- A relation between states that the steps keep in which declared types are read. -/
class Recording (unit : UnitId) (R : ScanState → ScanState → Prop) : Prop
    extends Answering unit R where
  /-- What is recorded of types, members and uses of fields. -/
  record : ∀ {α : Type} (action : GraphAction α), Keeps Graph.SameLedger action →
    Keeps Graph.SameUnits action → Keeps R (onGraph action)
  mainType : ∀ type, Keeps R (onGraph (Graph.setMainType unit type))

/-- A relation between states that the primitive steps of the scan of a unit keep. -/
class Guarantee (unit : UnitId) (R : ScanState → ScanState → Prop) : Prop
    extends Refers unit R where
  declare : ∀ name, Keeps R (inScope (·.declare name unit))
  record : ∀ {α : Type} (action : GraphAction α), Keeps Graph.SameLedger action →
    Keeps Graph.SameUnits action → Keeps R (onGraph action)
  mainType : ∀ type, Keeps R (onGraph (Graph.setMainType unit type))

/-- A relation between states that the primitive steps keep in which no name is resolved. -/
class Nameless (unit : UnitId) (R : ScanState → ScanState → Prop) : Prop where
  report : ∀ diagnostic, diagnostic.isLookupFailure = false → Keeps R (report diagnostic)
  note : ∀ source target, Keeps R (noteDependency source target)
  declare : ∀ name, Keeps R (inScope (·.declare name unit))
  record : ∀ {α : Type} (action : GraphAction α), Keeps Graph.SameLedger action →
    Keeps Graph.SameUnits action → Keeps R (onGraph action)
  mainType : ∀ type, Keeps R (onGraph (Graph.setMainType unit type))

instance (unit : UnitId) (R : ScanState → ScanState → Prop) [h : Guarantee unit R] :
    Nameless unit R where
  report diagnostic _ := h.report diagnostic
  note := h.note
  declare := h.declare
  record := h.record
  mainType := h.mainType

end ScanState

variable {R : ScanState → ScanState → Prop} [Action.Guarantee R]

instance {α : Type} (f : Graph → Except GraphError α) : Keeps R (ScanState.readGraph f) :=
  inferInstanceAs (Keeps R (check _))

/-! ### References -/

namespace ReferenceSite

variable (site : ReferenceSite)

/-- What the primitive steps keep is kept by the steps that are made of them. -/
instance (unit : UnitId) [h : ScanState.Refers unit R] : ScanState.Answering unit R where
  report := h.report
  note := h.note
  answer := by
    rintro site name place rfl
    have := h.resolve name
    have := h.require name
    have := h.report
    unfold resolve
    refine Keeps.bind inferInstance ?_
    intro result
    cases result with
    | ok id => infer_instance
    | error e => infer_instance

instance (unit : UnitId) [h : ScanState.Guarantee unit R] : ScanState.Recording unit R where
  record := h.record
  mainType := h.mainType

section

variable [h : ScanState.Answering site.source.unit R]

instance (name : QualifiedName) (place : Token) : Keeps R (site.resolve name place) :=
  h.answer site name place rfl

instance (segments : List Token) : Keeps R (site.refer segments) := by
  have := h.report
  have := h.note
  unfold refer
  split
  · infer_instance
  · dsimp only
    split <;> infer_instance

instance (typeVariables : List String) (mention : Mention) :
    Keeps R (site.mention typeVariables mention) := by
  unfold ReferenceSite.mention
  split <;> infer_instance

instance (typeVariables : List String) (mentions : List Mention) :
    Keeps R (site.mentionAll typeVariables mentions) := by
  unfold mentionAll
  infer_instance

instance (node : Tree) : Keeps R (site.annotationUse node) := by
  unfold annotationUse
  infer_instance

instance (node : Tree) : Keeps R (site.annotationUses node) := by
  unfold annotationUses
  infer_instance

instance (typeVariables : List String) (node : Tree) :
    Keeps R (site.typeBase typeVariables node) := by
  unfold typeBase
  split <;> infer_instance

instance (typeVariables : List String) (node : Tree) (dimensions : Nat) :
    Keeps R (site.typeUse typeVariables node dimensions) := by
  unfold typeUse
  infer_instance

instance (typeVariables : List String) (node : Tree) :
    Keeps R (site.declaredType typeVariables node) := by
  unfold declaredType
  infer_instance

instance (typeVariables : List String) (node : Tree) :
    Keeps R (site.declaredTypes typeVariables node) := by
  unfold declaredTypes
  infer_instance

/-! ### Types of members and bodies -/

instance (kind : NodeKind) : Keeps R (site.clause kind) := by
  unfold clause
  split <;> infer_instance

instance : Keeps R site.supertypes := by
  unfold supertypes
  split
  · infer_instance
  · infer_instance
  · infer_instance
  · infer_instance
  · refine Keeps.bind inferInstance ?_
    intro base
    cases base <;> infer_instance
  · infer_instance

instance (node : Tree) : Keeps R (site.functionTypeParameters node) := by
  unfold functionTypeParameters
  split <;> infer_instance

instance (typeVariables : List String) (node : Tree) :
    Keeps R (site.returnType typeVariables node) := by
  unfold returnType
  split
  · infer_instance
  · split <;> infer_instance

instance (typeVariables : List String) (node : Tree) :
    Keeps R (site.parameterHead typeVariables node) := by
  unfold parameterHead
  refine Keeps.bind inferInstance ?_
  intro _
  split <;> infer_instance

instance (typeVariables : List String) (node : Tree) :
    Keeps R (site.parameterHeads typeVariables node) := by
  unfold parameterHeads
  split <;> infer_instance

instance (typeVariables : List String) (event : BodyEvent) :
    Keeps R (site.recordEvent typeVariables event) := by
  unfold recordEvent
  split <;> infer_instance

instance (fields : VisibleFields) (body : Body) : Keeps R (site.recordBody fields body) := by
  unfold recordBody
  infer_instance

end

/-! ### Members -/

variable [h : ScanState.Recording site.source.unit R]

instance : Keeps R site.recordSupertypes := by
  unfold recordSupertypes
  refine Keeps.bind inferInstance ?_
  intro (superclass, interfaces)
  exact h.record _ (Graph.keeps_updateType _ _ fun _ => ⟨rfl, rfl⟩) inferInstance

instance (typeRef : Tree) (modifiers : Modifiers) (declarator : Tree) :
    Keeps R (site.recordField typeRef modifiers declarator) := by
  have := fun field => h.record (Graph.addField field) inferInstance inferInstance
  unfold recordField
  split
  · infer_instance
  · refine Keeps.bind inferInstance ?_
    intro use
    cases use <;> infer_instance

instance (node : Tree) : Keeps R (site.recordFields node) := by
  unfold recordFields
  refine Keeps.bind inferInstance ?_
  intro _
  split <;> infer_instance

instance (node : Tree) : Keeps R (site.recordEnumConstant node) := by
  have := fun field => h.record (Graph.addField field) inferInstance inferInstance
  unfold recordEnumConstant
  refine Keeps.bind inferInstance ?_
  intro _
  split <;> infer_instance

instance (node : Tree) : Keeps R (site.recordFunction node) := by
  have := fun (function : Function) (heads : List ParameterHead) => h.record (do
    let id ← Graph.addFunction function
    addParameters id heads
    return id) inferInstance inferInstance
  unfold recordFunction
  refine Keeps.bind inferInstance fun _ => Keeps.bind inferInstance ?_
  intro typeParameters
  split
  · infer_instance
  · dsimp only
    split
    · refine Keeps.bind inferInstance fun _ => Keeps.bind inferInstance ?_
      intro parameters
      split <;> infer_instance
    · refine Keeps.bind inferInstance fun _ => Keeps.bind inferInstance ?_
      intro parameters
      split <;> infer_instance

instance (node : Tree) : Keeps R (site.recordMember node) := by
  unfold recordMember
  split <;> infer_instance

instance : Keeps R site.recordMembers := by
  unfold recordMembers
  refine Keeps.bind inferInstance fun _ => Keeps.bind inferInstance ?_
  intro _
  split <;> infer_instance

end ReferenceSite

/-! ### Declarations -/

namespace Site

variable (source : SourceUnit) [h : ScanState.Nameless source.unit R]

instance (site : Site) (outer : Option DeclaredType) (name : QualifiedName) :
    Keeps R (site.declareAs source outer name) := by
  have := h.declare name
  have := fun text existing => h.report
    (.atNode source.file site.node (.duplicateDeclaration text existing)) rfl
  have hd := fun id => h.record (Graph.updateType id (site.declaredNode outer))
    (Graph.keeps_updateType _ _ fun _ => ⟨rfl, rfl⟩) inferInstance
  unfold declareAs
  refine Keeps.bind inferInstance ?_
  intro result
  cases result with
  | error e => cases e <;> infer_instance
  | ok id =>
    refine Keeps.bind (hd id) ?_
    intro _
    cases outer with
    | none => infer_instance
    | some outer =>
      refine Keeps.bind (h.record _ (Graph.keeps_updateType _ _ fun _ => ⟨rfl, rfl⟩) inferInstance) ?_
      infer_instance

instance (site : Site) (package : Option String) (outer : Option DeclaredType) :
    Keeps R (site.declare source package outer) := by
  have : (site.malformed source.file).isLookupFailure = false := by
    unfold malformed
    split <;> rfl
  have := h.report _ this
  unfold declare
  split <;> infer_instance

omit h in
mutual

theorem keeps_declareTree [ScanState.Nameless source.unit R] (package : Option String)
    (outer : Option DeclaredType) : ∀ site, Keeps R (declareTree source package outer site)
  | ⟨name?, number?, base?, node, within⟩ => by
    have ih := fun outer => keeps_declareAll package outer within
    unfold declareTree
    refine Keeps.bind inferInstance ?_
    intro type
    cases type <;> infer_instance

theorem keeps_declareAll [ScanState.Nameless source.unit R] (package : Option String)
    (outer : Option DeclaredType) : ∀ sites, Keeps R (declareAll source package outer sites)
  | [] => by
    unfold declareAll
    infer_instance
  | site :: rest => by
    have := keeps_declareTree package outer site
    have := keeps_declareAll package outer rest
    unfold declareAll
    infer_instance

end

end Site

/-! ### The scan of a file -/

section

variable (source : SourceUnit) [h : ScanState.Nameless source.unit R]

instance (header : Header) (root : Tree) : Keeps R (Declarations.declare source header root) := by
  have := Site.keeps_declareAll (R := R) source
  unfold Declarations.declare
  infer_instance

omit h in
/-- What is kept when something is recorded is kept when dependencies and uses of fields are
entered. -/
theorem keeps_flush_of_record (hr : ∀ action : GraphAction Unit, Keeps Graph.SameLedger action →
    Keeps Graph.SameUnits action → Keeps R (ScanState.onGraph action)) (accesses : List Access) :
    Keeps R (ScanState.flush accesses) := by
  have := fun dependencies => hr (forEach dependencies ScanState.addDependency) inferInstance
    inferInstance
  have := hr (forEach accesses Graph.addAccess) inferInstance inferInstance
  unfold ScanState.flush
  infer_instance

omit h in
theorem keeps_flush (unit : UnitId) [h : ScanState.Nameless unit R] (accesses : List Access) :
    Keeps R (ScanState.flush accesses) :=
  keeps_flush_of_record h.record accesses

/-- The three passes over a file keep what their steps keep. -/
instance keeps_scanTypes [h' : ScanState.Recording source.unit R] (recordAccesses : Bool)
    (header : Header) (path : String) (root : Tree) :
    Keeps R (scanTypes recordAccesses source header path root) := by
  have := h'.mainType
  have := fun accesses => keeps_flush (R := R) source.unit accesses
  unfold scanTypes
  refine Keeps.bind inferInstance ?_
  intro declared
  dsimp only
  split <;> infer_instance

end

end JavaGraph
