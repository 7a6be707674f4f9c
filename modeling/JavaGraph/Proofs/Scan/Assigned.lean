import Mathlib.Logic.Relation
import JavaGraph.Proofs.Scan.Accounted
import JavaGraph.Proofs.Scan.Laid
/-!
# Which type is declared where

Every node of a file that declares a type is declared as one type, or refused with a remark of its
own, or it is inside of one that is refused. The type around it and its name follow from its place.
-/

/-!
## The numbers of sites

Within a site the anonymous classes have the numbers from one on, in order, and so have the local
classes of each name.
-/

namespace JavaGraph.Site

/-- The numbers of the sites with a name, or of those without one, in order. -/
def numbersOf (name : Option String) (sites : List Site) : List Nat :=
  sites.filterMap fun site => if site.name?.map Token.text = name then site.number? else none

private theorem numbersOf_append (name : Option String) (a b : List Site) :
    numbersOf name (a ++ b) = numbersOf name a ++ numbersOf name b :=
  List.filterMap_append ..

private theorem numbersOf_singleton (name : Option String) (site : Site) :
    numbersOf name [site] =
      (if site.name?.map Token.text = name then site.number? else none).toList := by
  rw [numbersOf]
  cases h : if site.name?.map Token.text = name then site.number? else none with
  | none => exact List.filterMap_cons_none h
  | some number => exact List.filterMap_cons_some h

/-- The numbers begin with one, within a site and within those within it. -/
inductive Tallied : Site → Prop where
  | mk {site : Site}
      (numbers : ∀ name, numbersOf name site.within =
        List.range' 1 (numbersOf name site.within).length)
      (within : ∀ inner ∈ site.within, inner.Tallied) : Tallied site

namespace Numbering

/-- How many classes with a name, or without one, are numbered. -/
def count (numbering : Numbering) : Option String → Nat
  | none => numbering.anonymous
  | some name => (numbering.named.find? name).getD 0

/-- Nothing is numbered yet. -/
private theorem count_empty (name : Option String) : ({} : Numbering).count name = 0 := by
  cases name <;> rfl

private theorem count_nextAnonymous (numbering : Numbering) (name : Option String) :
    numbering.nextAnonymous.2.count name =
      numbering.count name + if name = none then 1 else 0 := by
  cases name <;> rfl

private theorem count_nextNamed (numbering : Numbering) (written : String)
    (name : Option String) : (numbering.nextNamed written).2.count name =
      numbering.count name + if name = some written then 1 else 0 := by
  cases name with
  | none => rfl
  | some name =>
    unfold nextNamed count
    simp only [Table.find?_insert, Option.some.injEq]
    by_cases h : name = written
    · subst h
      rw [if_pos rfl, if_pos rfl]
      rfl
    · rw [if_neg (Ne.symm h), if_neg h]
      rfl

end Numbering

/-- Sites have the numbers that follow those given before. -/
private structure Counts (before : Numbering) (sites : List Site) (after : Numbering) : Prop where
  count : ∀ name, after.count name = before.count name + (numbersOf name sites).length
  numbers : ∀ name, numbersOf name sites =
    List.range' (before.count name + 1) (numbersOf name sites).length
  within : ∀ site ∈ sites, site.Tallied

variable {before middle after : Numbering} {sites more within : List Site}

private theorem Counts.nil (numbering : Numbering) : Counts numbering [] numbering :=
  ⟨fun _ => rfl, fun _ => rfl, List.forall_mem_nil _⟩

private theorem Counts.append (h : Counts before sites middle) (h' : Counts middle more after) :
    Counts before (sites ++ more) after where
  count name := by
    rw [h'.count, h.count, numbersOf_append, List.length_append, Nat.add_assoc]
  numbers name := by
    have hmore := h'.numbers name
    rw [h.count, Nat.add_right_comm] at hmore
    rw [numbersOf_append, List.length_append, ← List.range'_append_1, ← h.numbers, ← hmore]
  within := List.forall_mem_append.2 ⟨h.within, h'.within⟩

/-- What is within a site is numbered from one on. -/
private theorem Counts.tallied {site : Site} (h : Counts {} site.within after) : site.Tallied :=
  .mk (fun name => by
    have hnumbers := h.numbers name
    rwa [Numbering.count_empty, Nat.zero_add] at hnumbers) h.within

/-- A site with the next number. -/
private theorem Counts.single {site : Site} {name : Option String}
    (hn : site.name?.map Token.text = name) (hnumber : site.number? = some (before.count name + 1))
    (hcount : ∀ other, after.count other = before.count other + if other = name then 1 else 0)
    (ht : site.Tallied) : Counts before [site] after where
  count other := by
    rw [hcount, numbersOf_singleton, hn]
    by_cases h : name = other
    · subst h
      rw [if_pos rfl, if_pos rfl, hnumber]
      rfl
    · rw [if_neg (Ne.symm h), if_neg h]
      rfl
  numbers other := by
    rw [numbersOf_singleton, hn]
    by_cases h : name = other
    · subst h
      rw [if_pos rfl, hnumber]
      rfl
    · rw [if_neg h]
      rfl
  within := List.forall_mem_singleton.2 ht

/-- A site without a number. -/
private theorem Counts.unnumbered {site : Site} (hnumber : site.number? = none)
    (ht : site.Tallied) : Counts before [site] before where
  count other := by
    rw [numbersOf_singleton, hnumber, ite_self]
    rfl
  numbers other := by
    rw [numbersOf_singleton, hnumber, ite_self]
    rfl
  within := List.forall_mem_singleton.2 ht

mutual

private theorem counts_ofMembers (numbering : Numbering) : ∀ nodes,
    Counts numbering (ofMembers numbering nodes).1 (ofMembers numbering nodes).2
  | [] => by
    rw [ofMembers]
    exact .nil _
  | member :: rest => by
    rw [ofMembers]
    exact (counts_ofMember numbering member).append (counts_ofMembers _ rest)

private theorem counts_ofMember (numbering : Numbering) : ∀ node,
    Counts numbering (ofMember numbering node).1 (ofMember numbering node).2
  | .error _ _ => by
    rw [ofMember]
    exact .nil _
  | .node kind anchor extent comments children => by
    have harguments := counts_ofFirstArguments numbering children
    have hcode := counts_ofCode numbering children
    rw [ofMember]
    split
    · split
      · exact .nil _
      · obtain ⟨after, hbody⟩ := counts_ofFirstBody (Tree.bodyKind children) children
        exact .unnumbered rfl (Counts.tallied hbody)
    · split
      · cases hsites : ofFirstArguments numbering children with
        | mk sites middle =>
          rw [hsites] at harguments
          dsimp only
          split
          · exact harguments
          · obtain ⟨after, hbody⟩ := counts_ofFirstBody .classBody children
            exact harguments.append (.single rfl rfl (Numbering.count_nextAnonymous _)
              (Counts.tallied hbody))
      · split
        · exact .nil _
        · exact hcode

private theorem counts_ofCode (numbering : Numbering) : ∀ nodes,
    Counts numbering (ofCode numbering nodes).1 (ofCode numbering nodes).2
  | [] => by
    rw [ofCode]
    exact .nil _
  | node :: rest => by
    rw [ofCode]
    exact (counts_ofCodeNode numbering node).append (counts_ofCode _ rest)

private theorem counts_ofCodeNode (numbering : Numbering) : ∀ node,
    Counts numbering (ofCodeNode numbering node).1 (ofCodeNode numbering node).2
  | .error _ _ => by
    rw [ofCodeNode]
    exact .nil _
  | .node kind anchor extent comments children => by
    have hcode := fun numbering => counts_ofCode numbering children
    rw [ofCodeNode]
    split
    · split
      · exact .nil _
      · next name _ =>
        obtain ⟨after, hbody⟩ := counts_ofFirstBody (Tree.bodyKind children) children
        exact .single rfl rfl (Numbering.count_nextNamed _ _) (Counts.tallied hbody)
    · split
      · split
        · next base body _ _ =>
          obtain ⟨after, hbody⟩ := counts_ofFirstBody .classBody children
          have htallied : Tallied ⟨none, some numbering.nextAnonymous.1, some base, body,
            ofFirstBody .classBody children⟩ := Counts.tallied hbody
          exact (Counts.single rfl rfl (Numbering.count_nextAnonymous _) htallied).append (hcode _)
        · exact hcode _
      · split
        · exact .nil _
        · exact hcode _

private theorem counts_ofFirstBody (bodyKind : NodeKind) : ∀ nodes,
    ∃ after, Counts {} (ofFirstBody bodyKind nodes) after
  | [] => by
    rw [ofFirstBody]
    exact ⟨_, .nil _⟩
  | .node kind _ _ _ members :: rest => by
    have hmembers := counts_ofMembers {} members
    have hrest := counts_ofFirstBody bodyKind rest
    rw [ofFirstBody]
    split
    · exact ⟨_, hmembers⟩
    · exact hrest
  | .error _ _ :: rest => by
    rw [ofFirstBody]
    exact counts_ofFirstBody bodyKind rest

private theorem counts_ofFirstArguments (numbering : Numbering) : ∀ nodes,
    Counts numbering (ofFirstArguments numbering nodes).1 (ofFirstArguments numbering nodes).2
  | [] => by
    rw [ofFirstArguments]
    exact .nil _
  | .node kind _ _ _ arguments :: rest => by
    have harguments := counts_ofCode numbering arguments
    have hrest := counts_ofFirstArguments numbering rest
    rw [ofFirstArguments]
    split
    · exact harguments
    · exact hrest
  | .error _ _ :: rest => by
    rw [ofFirstArguments]
    exact counts_ofFirstArguments numbering rest

end

/-- Within every site of a file the numbers begin with one. -/
theorem tallied_ofTree {root : Tree} {site : Site} (h : site ∈ ofTree root) : site.Tallied := by
  unfold ofTree at h
  obtain ⟨node, hm, hs⟩ := List.mem_filterMap.1 h
  unfold ofTopLevel? at hs
  split at hs
  · obtain ⟨name, hn, rfl⟩ := Option.map_eq_some_iff.1 hs
    obtain ⟨after, hbody⟩ := counts_ofFirstBody (Tree.bodyKind node.children) node.children
    exact Counts.tallied hbody
  · cases hs

end JavaGraph.Site

/-! ## Nodes and types -/

namespace JavaGraph

open JavaGraph.Tree

namespace Tree

/-- A site is at a place, or around it: in its body, or in that of one in its body, and so on. -/
def Encloses (root : Tree) : Place → Place → Prop :=
  Relation.ReflTransGen fun outer inner => root.owner? inner = some outer

/-- The name that the type at a place is declared by; anonymous classes have none. -/
def typeName? (root : Tree) (place : Place) : Option String :=
  (root.at? place).bind fun node => node.typeToken?.map Token.text

/-- Whether the type at a place is numbered: it is anonymous or local. -/
def isNumbered (root : Tree) (place : Place) : Bool :=
  (root.typeName? place).isNone || root.isLocal place

/-- The places of the anonymous classes, or the local classes of a name, that a site owns. -/
def numberedIn (root : Tree) (owner : Place) (name : Option String) : List Place :=
  (sitesOf [] root).filter fun place =>
    root.owner? place = some owner ∧ root.isNumbered place = true ∧ root.typeName? place = name

/-- What the type at a place is called within the type around it: by its name, its number, or its
number and its name. -/
def labelAt (root : Tree) (number : Place → Nat) (place : Place) : String :=
  (if root.isNumbered place then toString (number place) else "") ++
    (root.typeName? place).getD ""

end Tree

namespace Site

variable {root : Tree} {owner : Option Place} {site : Site} {sites : List Site} {place : Place}
  {laid : List (Site × Place)}

/-- The name of a site is that of the type at its place. -/
theorem Describes.typeName? (h : site.Describes root place) :
    root.typeName? place = site.name?.map Token.text := by
  obtain ⟨node, hn, -, hname, -⟩ := h.node
  unfold Tree.typeName?
  rw [hn, Option.bind_some, hname]

/-- A site has a number if the type at its place is numbered. -/
theorem Describes.isNumbered (h : site.Describes root place) :
    root.isNumbered place = site.number?.isSome := by
  unfold Tree.isNumbered
  rw [h.typeName?, h.number, Option.isNone_map]

/-! ### Numbers -/

/-- The number of the site at a place. -/
def numberAt (laid : List (Site × Place)) (place : Place) : Nat :=
  ((Place.lookup laid place).bind (·.number?)).getD 0

/-- The number at a place is that of the site which is there. -/
theorem numberAt_eq (hn : (laid.map (·.2)).Nodup) (hm : (site, place) ∈ laid) :
    numberAt laid place = site.number?.getD 0 := by
  unfold numberAt
  rw [(Place.lookup_eq_some_iff hn).2 hm]
  rfl

/-- The label of a site is that of its place. -/
theorem Describes.label_eq (h : site.Describes root place) (hn : (laid.map (·.2)).Nodup)
    (hm : (site, place) ∈ laid) : site.label = root.labelAt (numberAt laid) place := by
  unfold label Tree.labelAt
  rw [h.isNumbered, h.typeName?, numberAt_eq hn hm]
  cases site.number? <;> rfl

/-- If the outermost sites are numbered well, so are all. -/
private theorem Laid.tallied (h : Laid root owner sites laid)
    (ht : ∀ site ∈ sites, site.Tallied) : ∀ pair ∈ laid, pair.1.Tallied := by
  induction h with
  | nil owner => exact List.forall_mem_nil _
  | cons _ _ _ _ ih ih' =>
    rw [List.forall_mem_cons] at ht
    refine List.forall_mem_cons.2 ⟨ht.1, List.forall_mem_append.2 ⟨ih ?_, ih' ht.2⟩⟩
    cases ht.1 with
    | mk numbers within => exact within

/-- The numbers of the places that a site owns are those of the sites within it. -/
private theorem Laid.map_numberAt (h : Laid root owner sites laid) (hn : (laid.map (·.2)).Nodup)
    (outer : Place) (name : Option String) :
    (laid.filter fun pair => root.owner? pair.2 = some outer ∧
        root.isNumbered pair.2 = true ∧ root.typeName? pair.2 = name).map
      (fun pair => numberAt laid pair.2) =
    numbersOf name ((laid.filter fun pair => root.owner? pair.2 = some outer).map (·.1)) := by
  rw [numbersOf, List.filterMap_map, List.filterMap_filter, ← List.filterMap_eq_map,
    List.filterMap_filter]
  refine List.filterMap_congr fun pair hm => ?_
  have hd := h.describes pair hm
  have hnumber : numberAt laid pair.2 = pair.1.number?.getD 0 := numberAt_eq hn hm
  rw [hd.isNumbered, hd.typeName?]
  by_cases ho : root.owner? pair.2 = some outer
  · by_cases hname : pair.1.name?.map Token.text = name
    · cases hnumber? : pair.1.number? with
      | none => simp [ho, hname, hnumber?]
      | some number => simp [ho, hname, hnumber?, hnumber]
    · simp [hname]
  · simp [ho]

/-- The anonymous classes that a site owns, and the local classes of each name, have the numbers
from one on, each once. -/
theorem Laid.numbers (h : Laid root none sites laid) (hp : (laid.map (·.2)).Perm (sitesOf [] root))
    (hn : (laid.map (·.2)).Nodup) (ht : ∀ site ∈ sites, site.Tallied) (outer : Place)
    (name : Option String) : ((root.numberedIn outer name).map (numberAt laid)).Perm
      (List.range' 1 (root.numberedIn outer name).length) := by
  have hplaces : (root.numberedIn outer name).Perm ((laid.filter fun pair =>
      root.owner? pair.2 = some outer ∧ root.isNumbered pair.2 = true ∧
        root.typeName? pair.2 = name).map (·.2)) := by
    refine (hp.filter _).symm.trans (.of_eq ?_)
    rw [List.filter_map]
    rfl
  have hnumbers := h.map_numberAt hn outer name
  have hrange : ∀ numbers, numbersOf name
      ((laid.filter fun pair => root.owner? pair.2 = some outer).map (·.1)) = numbers →
        numbers = List.range' 1 numbers.length := by
    rintro _ rfl
    by_cases hm : outer ∈ laid.map (·.2)
    · obtain ⟨⟨site, _⟩, hsite, rfl⟩ := List.mem_map.1 hm
      rw [h.within hn hsite]
      cases h.tallied ht _ hsite with
      | mk numbers within => exact numbers name
    · have hnone : (laid.filter fun pair => root.owner? pair.2 = some outer) = [] :=
        h.filter_eq_nil nofun fun pair hpair he =>
          hm (List.mem_map.2 ⟨pair, hpair, (Option.some.inj he).symm⟩)
      rw [hnone]
      rfl
  have hall := hrange _ hnumbers.symm
  rw [List.length_map] at hall
  refine (hplaces.map _).trans ?_
  rw [hplaces.length_eq, List.length_map, List.map_map]
  exact .of_eq hall

/-! ### Types -/

/-- What is said if the site of a type is refused: its name is malformed, or declared already. -/
def Remarked (site : Site) (file : FileId) (diagnostic : Diagnostic) : Prop :=
  diagnostic = site.malformed file ∨ ∃ name existing,
    diagnostic = .atNode file site.node (.duplicateDeclaration name existing)

/-- A declared type is directly within another, or at the top level. -/
structure Below (package : Option String) (outer : Option DeclaredType) (type : DeclaredType) :
    Prop where
  chain : type.outer = match outer with
    | none => []
    | some outer => outer.id :: outer.outer
  name : type.site.qualifiedName package outer = .ok type.name

/-- The types that sites declare, at the places of the sites, and what is said of those that are
refused. -/
structure Assigned (root : Tree) (package : Option String) (file : FileId) (owner : Option Place)
    (outer : Option DeclaredType) (laid : List (Site × Place)) (placed : List (DeclaredType × Place))
    (refused : List (Diagnostic × Place)) : Prop where
  site : ∀ pair ∈ placed, (pair.1.site, pair.2) ∈ laid
  around : ∀ pair ∈ placed, (root.owner? pair.2 = owner ∧ Below package outer pair.1) ∨
    ∃ other ∈ placed, root.owner? pair.2 = some other.2 ∧ Below package (some other.1) pair.1
  remarked : ∀ pair ∈ refused, ∃ site, (site, pair.2) ∈ laid ∧ site.Remarked file pair.1
  /-- What is not declared is refused, or inside of what is. -/
  covered : ∀ pair ∈ laid, pair.2 ∈ placed.map (·.2) ∨
    ∃ other ∈ refused, root.Encloses other.2 pair.2
  /-- No site is declared twice, or declared and refused. -/
  apart : (placed.map (·.2) ++ refused.map (·.2)).Subperm (laid.map (·.2))

variable {source : SourceUnit} {package : Option String} {home : Universe} {graph : Graph}
  {file : FileId} {outer : Option DeclaredType} {types : List DeclaredType}
  {found : List Diagnostic} {inner others : List (Site × Place)}
  {placed placed' : List (DeclaredType × Place)} {refused refused' : List (Diagnostic × Place)}

/-- What is laid out within a site is inside of it. -/
private theorem Laid.encloses {outer : Place} (h : Laid root owner sites laid)
    (ho : owner = some outer) : ∀ pair ∈ laid, root.Encloses outer pair.2 := by
  induction h generalizing outer with
  | nil owner => exact List.forall_mem_nil _
  | cons _ howner _ _ ih ih' =>
    have hhere : root.Encloses outer _ := .single (howner.trans ho)
    exact List.forall_mem_cons.2 ⟨hhere, List.forall_mem_append.2
      ⟨fun pair hm => .trans hhere (ih rfl pair hm), ih' ho⟩⟩

/-- No sites declare nothing. -/
private theorem Assigned.nil : Assigned root package file owner outer [] [] [] where
  site := List.forall_mem_nil _
  around := List.forall_mem_nil _
  remarked := List.forall_mem_nil _
  covered := List.forall_mem_nil _
  apart := .refl _

/-- A site is refused, and all that is within it is left out. -/
private theorem Assigned.refuse {diagnostic : Diagnostic}
    (hin : ∀ pair ∈ inner, root.Encloses place pair.2) (hr : site.Remarked file diagnostic)
    (h : Assigned root package file owner outer others placed refused) :
    Assigned root package file owner outer ((site, place) :: (inner ++ others)) placed
      ((diagnostic, place) :: refused) where
  site pair hm := List.mem_cons_of_mem _ (List.mem_append_right _ (h.site pair hm))
  around := h.around
  remarked := by
    refine List.forall_mem_cons.2 ⟨⟨site, List.mem_cons_self .., hr⟩, fun pair hm => ?_⟩
    obtain ⟨other, ho, hremarked⟩ := h.remarked pair hm
    exact ⟨other, List.mem_cons_of_mem _ (List.mem_append_right _ ho), hremarked⟩
  covered := by
    refine List.forall_mem_cons.2 ⟨.inr ⟨_, List.mem_cons_self .., .refl⟩,
      List.forall_mem_append.2 ⟨fun pair hm => .inr ⟨_, List.mem_cons_self .., hin pair hm⟩,
        fun pair hm => (h.covered pair hm).imp_right ?_⟩⟩
    rintro ⟨other, ho, he⟩
    exact ⟨other, List.mem_cons_of_mem _ ho, he⟩
  apart := by
    rw [List.map_cons, List.map_cons, List.map_append]
    refine List.perm_middle.subperm.trans ((List.subperm_cons place).2 (h.apart.trans ?_))
    exact (List.sublist_append_right ..).subperm

/-- A site is declared, and then those within it and the others. -/
private theorem Assigned.declare {type : DeclaredType} (hs : type.site = site)
    (ho : root.owner? place = owner) (hb : Below package outer type)
    (h : Assigned root package file (some place) (some type) inner placed refused)
    (h' : Assigned root package file owner outer others placed' refused') :
    Assigned root package file owner outer ((site, place) :: (inner ++ others))
      ((type, place) :: (placed ++ placed')) (refused ++ refused') where
  site := by
    subst hs
    refine List.forall_mem_cons.2 ⟨List.mem_cons_self .., List.forall_mem_append.2
      ⟨fun pair hm => ?_, fun pair hm => ?_⟩⟩
    · exact List.mem_cons_of_mem _ (List.mem_append_left _ (h.site pair hm))
    · exact List.mem_cons_of_mem _ (List.mem_append_right _ (h'.site pair hm))
  around := by
    refine List.forall_mem_cons.2 ⟨.inl ⟨ho, hb⟩, List.forall_mem_append.2
      ⟨fun pair hm => .inr ?_, fun pair hm => (h'.around pair hm).imp_right ?_⟩⟩
    · rcases h.around pair hm with ⟨howner, hbelow⟩ | ⟨other, hother, hrest⟩
      · exact ⟨_, List.mem_cons_self .., howner, hbelow⟩
      · exact ⟨other, List.mem_cons_of_mem _ (List.mem_append_left _ hother), hrest⟩
    · rintro ⟨other, hother, hrest⟩
      exact ⟨other, List.mem_cons_of_mem _ (List.mem_append_right _ hother), hrest⟩
  remarked := by
    refine List.forall_mem_append.2 ⟨fun pair hm => ?_, fun pair hm => ?_⟩
    · obtain ⟨other, hother, hr⟩ := h.remarked pair hm
      exact ⟨other, List.mem_cons_of_mem _ (List.mem_append_left _ hother), hr⟩
    · obtain ⟨other, hother, hr⟩ := h'.remarked pair hm
      exact ⟨other, List.mem_cons_of_mem _ (List.mem_append_right _ hother), hr⟩
  covered := by
    rw [List.map_cons, List.map_append]
    refine List.forall_mem_cons.2 ⟨.inl (List.mem_cons_self ..), List.forall_mem_append.2
      ⟨fun pair hm => ?_, fun pair hm => ?_⟩⟩
    · refine (h.covered pair hm).imp (fun hp => ?_) fun ⟨other, hother, he⟩ => ?_
      · exact List.mem_cons_of_mem _ (List.mem_append_left _ hp)
      · exact ⟨other, List.mem_append_left _ hother, he⟩
    · refine (h'.covered pair hm).imp (fun hp => ?_) fun ⟨other, hother, he⟩ => ?_
      · exact List.mem_cons_of_mem _ (List.mem_append_right _ hp)
      · exact ⟨other, List.mem_append_right _ hother, he⟩
  apart := by
    simp only [List.map_cons, List.map_append, List.cons_append]
    refine (List.subperm_cons place).2 (.trans ?_ (h.apart.append h'.apart))
    rw [List.append_assoc, List.append_assoc]
    exact ((List.perm_append_comm_assoc ..).append_left _).subperm

/-- Whatever the sites are, their types are declared at their places. -/
theorem Accounted.assigned (h : Accounted source package home graph outer sites types found)
    (hl : Laid root owner sites laid) : ∃ placed refused,
      placed.map (·.1) = types ∧ refused.map (·.1) = found ∧
        Assigned root package source.file owner outer laid placed refused := by
  induction h generalizing owner laid with
  | nil outer =>
    cases hl
    exact ⟨[], [], rfl, rfl, .nil⟩
  | malformed _ _ ih =>
    cases hl with
    | cons _ _ hinner hothers =>
      obtain ⟨placed, refused, rfl, rfl, h⟩ := ih hothers
      exact ⟨_, _, rfl, rfl, h.refuse (hinner.encloses rfl) (.inl rfl)⟩
  | duplicate _ _ _ ih =>
    cases hl with
    | cons _ _ hinner hothers =>
      obtain ⟨placed, refused, rfl, rfl, h⟩ := ih hothers
      exact ⟨_, _, rfl, rfl, h.refuse (hinner.encloses rfl) (.inr ⟨_, _, rfl⟩)⟩
  | @declared outer site rest inner types found others name id x hname _ _ _ _ _ _ ih ih' =>
    have hbelow : Below package outer (site.declaredType outer name id) := ⟨rfl, hname⟩
    cases hl with
    | cons _ howner hinner hothers =>
      obtain ⟨placed, refused, rfl, rfl, h⟩ := ih hinner
      obtain ⟨placed', refused', rfl, rfl, h'⟩ := ih' hothers
      refine ⟨_, _, ?_, ?_, Assigned.declare rfl howner hbelow h h'⟩
      · rw [List.map_cons, List.map_append]
        rfl
      · rw [List.map_append]

/-- What is around the place of a declared type is one, too. -/
private theorem Assigned.mem_of_encloses
    (h : Assigned root package file none outer laid placed refused) {around : Place}
    (he : root.Encloses around place) (hp : place ∈ placed.map (·.2)) :
    around ∈ placed.map (·.2) := by
  induction he with
  | refl => exact hp
  | tail _ howner ih =>
    obtain ⟨pair, hm, rfl⟩ := List.mem_map.1 hp
    rcases h.around pair hm with ⟨hnone, -⟩ | ⟨other, ho, hother, -⟩
    · cases hnone.symm.trans howner
    · obtain rfl := Option.some.inj (hother.symm.trans howner)
      exact ih (List.mem_map.2 ⟨other, ho, rfl⟩)

/-- No place is that of two types, or of a type and a remark. -/
private theorem Assigned.nodup_append
    (h : Assigned root package file owner outer laid placed refused)
    (hn : (laid.map (·.2)).Nodup) : (placed.map (·.2) ++ refused.map (·.2)).Nodup := by
  obtain ⟨places, hperm, hsublist⟩ := h.apart
  exact hperm.nodup_iff.1 (hn.sublist hsublist)

/-- No place is that of two declared types. -/
theorem Assigned.nodup (h : Assigned root package file owner outer laid placed refused)
    (hn : (laid.map (·.2)).Nodup) : (placed.map (·.2)).Nodup :=
  (List.nodup_append.1 (h.nodup_append hn)).1

/-- No place is that of two remarks. -/
theorem Assigned.nodup_refused (h : Assigned root package file owner outer laid placed refused)
    (hn : (laid.map (·.2)).Nodup) : (refused.map (·.2)).Nodup :=
  (List.nodup_append.1 (h.nodup_append hn)).2.1

/-- Just those sites are declared that are neither refused nor inside of one that is. -/
theorem Assigned.mem_iff (h : Assigned root package file none outer laid placed refused)
    (hn : (laid.map (·.2)).Nodup) (place : Place) : place ∈ placed.map (·.2) ↔
      place ∈ laid.map (·.2) ∧ ∀ around ∈ refused.map (·.2), ¬ root.Encloses around place := by
  constructor
  · intro hm
    refine ⟨h.apart.subset (List.mem_append_left _ hm), fun around ha he => ?_⟩
    exact (List.nodup_append.1 (h.nodup_append hn)).2.2 around (h.mem_of_encloses he hm) around ha
      rfl
  · rintro ⟨hm, hnone⟩
    obtain ⟨pair, hp, rfl⟩ := List.mem_map.1 hm
    refine (h.covered pair hp).resolve_right ?_
    rintro ⟨other, ho, he⟩
    exact hnone other.2 (List.mem_map.2 ⟨other, ho, rfl⟩) he

end Site

end JavaGraph
