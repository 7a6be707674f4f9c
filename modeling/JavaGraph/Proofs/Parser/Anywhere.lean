import JavaGraph.Proofs.Parser.Agreement
/-!
# A construct is built the same wherever it stands

Two builders are abreast if the same has been added to two others since. Every step keeps them so.
What a construct becomes does not depend on what was built before it, nor on the faults that were
found there.
-/

namespace JavaGraph

namespace Builder

section

variable {base base' builder builder' : Builder} {level : Nat}

/-- The same children were added to two builders, and the same nodes are open within them. -/
def Abreast (base base' : Builder) (inner : List Frame) (builder builder' : Builder) : Prop :=
  ∃ added outer outer', base.Adds added outer ∧ base'.Adds added outer' ∧
    builder = outer.within inner ∧ builder' = outer'.within inner

/-- The places in two builders that have the same number of nodes open within, and the same number
of new children of the innermost one. -/
def Facing (base base' : Builder) (level : Nat) (place place' : Checkpoint) : Prop :=
  place.depth = base.opened.length + level ∧ place'.depth = base'.opened.length + level ∧
    ∃ count, place.children = (if level = 0 then base.top.children.length else 0) + count ∧
      place'.children = (if level = 0 then base'.top.children.length else 0) + count

@[simp] theorem within_nil (builder : Builder) : builder.within [] = builder := rfl

theorem abreast_refl (base base' : Builder) : Abreast base base' [] base base' :=
  ⟨[], base, base', adds_nil base, adds_nil base', rfl, rfl⟩

variable {inner : List Frame}

theorem Abreast.opened (h : Abreast base base' inner builder builder') :
    builder.opened.length = base.opened.length + inner.length ∧
      builder'.opened.length = base'.opened.length + inner.length := by
  obtain ⟨added, outer, outer', ⟨_, -, -, -, rfl⟩, ⟨_, -, -, -, rfl⟩, rfl, rfl⟩ := h
  simp [within, Nat.add_comm]

/-- The innermost open node gets a child. -/
def pushInto (child : Tree) : List Frame → List Frame
  | [] => []
  | frame :: outer => frame.push child :: outer

@[simp] theorem length_pushInto (child : Tree) (inner : List Frame) :
    (pushInto child inner).length = inner.length := by
  cases inner <;> rfl

theorem Abreast.push (h : Abreast base base' inner builder builder') (child : Tree) :
    Abreast base base' (pushInto child inner) (builder.push child) (builder'.push child) := by
  obtain ⟨added, outer, outer', ha, ha', rfl, rfl⟩ := h
  cases inner with
  | nil =>
    exact ⟨added ++ [child], _, _, ha.trans (adds_push outer child),
      ha'.trans (adds_push outer' child), rfl, rfl⟩
  | cons frame inner => exact ⟨added, outer, outer', ha, ha', rfl, rfl⟩

theorem Abreast.start (h : Abreast base base' inner builder builder') (frame : Frame) :
    Abreast base base' (frame :: inner) (builder.within [frame]) (builder'.within [frame]) := by
  obtain ⟨added, outer, outer', ha, ha', rfl, rfl⟩ := h
  exact ⟨added, outer, outer', ha, ha', rfl, rfl⟩

/-- A node that is finished becomes a child of the one around it, in both builders. -/
theorem Abreast.finishNode {frame : Frame}
    (h : Abreast base base' (frame :: inner) builder builder') :
    Abreast base base' (pushInto frame.toTree inner) builder.finishNode builder'.finishNode := by
  obtain ⟨added, outer, outer', ha, ha', rfl, rfl⟩ := h
  exact Abreast.push ⟨added, outer, outer', ha, ha', rfl, rfl⟩ frame.toTree

theorem Abreast.finishNodes {count : Nat} (h : Abreast base base' inner builder builder')
    (hl : inner.length = level + count) :
    ∃ left, left.length = level ∧
      Abreast base base' left (builder.finishNodes count) (builder'.finishNodes count) := by
  induction count generalizing inner builder builder' with
  | zero => exact ⟨inner, hl, h⟩
  | succ count ih =>
    obtain ⟨frame, outer, rfl⟩ := List.exists_cons_of_length_eq_add_one hl
    exact ih h.finishNode ((length_pushInto _ outer).trans (Nat.succ.inj hl))

end

section

variable {base base' builder builder' : Builder} {level : Nat} {inner : List Frame}
  {place place' : Checkpoint}

theorem Abreast.facing (h : Abreast base base' inner builder builder') :
    Facing base base' inner.length builder.checkpoint builder'.checkpoint := by
  refine ⟨h.opened.1, h.opened.2, ?_⟩
  obtain ⟨added, outer, outer', ⟨frame, -, -, hc, rfl⟩, ⟨frame', -, -, hc', rfl⟩, rfl, rfl⟩ := h
  cases inner with
  | nil => exact ⟨added.length, by simp [checkpoint, hc], by simp [checkpoint, hc']⟩
  | cons top inner => exact ⟨top.children.length, by simp [checkpoint], by simp [checkpoint]⟩

/-- Closing two builders down to places that face each other leaves them abreast. -/
theorem Abreast.closeTo (h : Abreast base base' inner builder builder')
    (hp : Facing base base' level place place') (hl : level ≤ inner.length) :
    ∃ left, left.length = level ∧
      Abreast base base' left (builder.closeTo place.depth) (builder'.closeTo place'.depth) := by
  have hcount : builder.opened.length - place.depth = inner.length - level ∧
      builder'.opened.length - place'.depth = inner.length - level := by
    rw [h.opened.1, h.opened.2, hp.1, hp.2.1]
    omega
  unfold Builder.closeTo
  rw [hcount.1, hcount.2]
  exact h.finishNodes (Nat.add_sub_of_le hl).symm

/-- The same was added to two builders since places that face each other, and without that they are
abreast. -/
theorem Abreast.rewind (h : Abreast base base' inner builder builder')
    (hp : Facing base base' level place place') (hl : level ≤ inner.length) :
    builder.since place = builder'.since place' ∧
      ∃ left, left.length = level ∧
        Abreast base base' left (builder.rewind place) (builder'.rewind place') := by
  obtain ⟨left, hleft, hclosed⟩ := h.closeTo hp hl
  obtain ⟨-, -, count, hc, hc'⟩ := hp
  unfold since Builder.rewind
  dsimp only
  obtain ⟨added, outer, outer', ha, ha', he, he'⟩ := hclosed
  rw [he, he', hc, hc']
  cases left with
  | nil =>
    obtain rfl : level = 0 := hleft.symm
    obtain ⟨frame, hk, hanchor, hchildren, rfl⟩ := ha
    obtain ⟨frame', hk', hanchor', hchildren', rfl⟩ := ha'
    refine ⟨?_, [], rfl, added.take count, _, _,
      ⟨frame.keep (base.top.children.length + count), hk, hanchor, ?_, rfl⟩,
      ⟨frame'.keep (base'.top.children.length + count), hk', hanchor', ?_, rfl⟩, ?_, ?_⟩
    · simp [hchildren, hchildren', List.drop_length_add_append]
    · simp [Frame.keep, hchildren, List.take_length_add_append]
    · simp [Frame.keep, hchildren', List.take_length_add_append]
    · simp
    · simp
  | cons frame left =>
    obtain ⟨level, rfl⟩ : ∃ below, level = below + 1 := ⟨left.length, hleft.symm⟩
    exact ⟨rfl, frame.keep (0 + count) :: left, hleft, added, outer, outer', ha, ha', rfl, rfl⟩

theorem Abreast.startAt (h : Abreast base base' inner builder builder')
    (hp : Facing base base' inner.length place place') (kind : NodeKind) (anchor : Token) :
    ∃ frame left, left.length = inner.length ∧
      Abreast base base' (frame :: left) (builder.startAt place kind anchor)
        (builder'.startAt place' kind anchor) := by
  obtain ⟨hsince, left, hleft, hrewound⟩ := h.rewind hp (Nat.le_refl _)
  unfold Builder.startAt
  dsimp only
  rw [hsince]
  exact ⟨_, left, hleft, hrewound.start _⟩

end

end Builder

namespace Parser

open Parse

/-- A recovery reports a fault if none was found since, so that there is a last one, with faults in
front or without. -/
private theorem exists_recovered (faults : List ParseError) {errors : List ParseError}
    (fault : ParseError) {before : Nat} (h : before ≤ errors.length) : ∃ errors',
      (if errors.length = before then errors ++ [fault] else errors) = errors' ∧
      (if errors.length = before then faults ++ errors ++ [fault] else faults ++ errors) =
        faults ++ errors' ∧
      (faults ++ errors').getLast? = errors'.getLast? := by
  have hlast : ∀ {found : List ParseError}, found ≠ [] →
      (faults ++ found).getLast? = found.getLast? := by
    intro found hne
    rw [List.getLast?_append, List.getLast?_eq_some_getLast hne]
    rfl
  by_cases he : errors.length = before
  · refine ⟨errors ++ [fault], by simp [he], by simp [he], hlast (by simp)⟩
  · refine ⟨errors, by simp [he], by simp [he], hlast ?_⟩
    rintro rfl
    exact he (Nat.le_zero.1 h).symm

/-- States are alike if the same was added to two builders, behind faults that were found in one
of them only. -/
def Likeness.anywhere (base base' : Builder) (faults : List ParseError) : Likeness where
  alike level s t := s.ahead = t.ahead ∧ s.errors = faults ++ t.errors ∧
    ∃ inner, inner.length = level ∧ Builder.Abreast base base' inner s.builder t.builder
  astray level s t := s.ahead = t.ahead ∧ s.errors = faults ++ t.errors ∧
    ∃ inner, level ≤ inner.length ∧ Builder.Abreast base base' inner s.builder t.builder
  places := Builder.Facing base base'
  ahead_eq h := h.1
  fail := fun ⟨ha, he, inner, hl, h⟩ => ⟨ha, he, inner, Nat.le_of_eq hl.symm, h⟩
  outward := fun ⟨ha, he, inner, hl, h⟩ => ⟨ha, he, inner, Nat.le_of_succ_le hl, h⟩
  checkpoint := by
    rintro _ s t ⟨-, -, inner, rfl, h⟩
    exact h.facing
  bump := by
    rintro _ token ahead s t errors errors' ⟨-, he, inner, rfl, h⟩
    exact ⟨rfl, he, _, Builder.length_pushInto _ inner, h.push (.leaf token)⟩
  record := by
    rintro _ s t error ⟨ha, he, h⟩
    exact ⟨ha, by simp [he], h⟩
  start := by
    rintro _ s t kind anchor ⟨ha, he, inner, rfl, h⟩
    exact ⟨ha, he, _, rfl, h.start { kind, anchor }⟩
  startAt := by
    rintro _ s t place place' kind anchor hp ⟨ha, he, inner, rfl, h⟩
    obtain ⟨frame, left, hleft, hstart⟩ := h.startAt hp kind anchor
    exact ⟨ha, he, frame :: left, congrArg (· + 1) hleft, hstart⟩
  finish := by
    rintro _ s t ⟨ha, he, inner, hl, h⟩
    obtain ⟨frame, outer, rfl⟩ := List.exists_cons_of_length_eq_add_one hl
    exact ⟨ha, he, _, (Builder.length_pushInto _ outer).trans (Nat.succ.inj hl), h.finishNode⟩
  recover := by
    rintro _ input before before' after after' resume ⟨ha, he, inner, rfl, h⟩
      ⟨ha', he', inner', hl, h'⟩ hgrows
    obtain ⟨hsince, left, hleft, hrewound⟩ := h'.rewind h.facing hl
    -- As many faults are found behind those of one state as in the other, and recovery knows the last.
    have hgrows' : before'.errors.length ≤ after'.errors.length := by
      rw [he, he', List.length_append, List.length_append] at hgrows
      omega
    have hcount : after.errors.length = before.errors.length ↔
        after'.errors.length = before'.errors.length := by
      rw [he, he', List.length_append, List.length_append]
      omega
    unfold Parser.recover Builder.abandon
    dsimp only
    simp only [ha, ha', hsince, hcount]
    generalize Tree.tokensOf (after'.builder.since before'.builder.checkpoint) ++ (skipTo resume
      (!(after'.ahead.length < before'.ahead.length)) 0 after'.ahead).1 = region
    generalize (skipTo resume (!(after'.ahead.length < before'.ahead.length)) 0 after'.ahead).2 = rest
    generalize ParseError.atToken _ "unexpected input" = fault
    obtain ⟨errors, hfound, herrors, hsame⟩ := exists_recovered faults fault hgrows'
    rw [he', hfound, herrors, hsame]
    refine ⟨trivial, rfl, ?_⟩
    split
    · exact ⟨_, (Builder.length_pushInto _ left).trans hleft, hrewound.push _⟩
    · exact ⟨left, hleft, hrewound⟩

/-- What succeeds at one place succeeds at any other, and adds the same there. -/
theorem exists_added_anywhere (base : Builder) (faults : List ParseError) {step : Parse Unit}
    {input : Input} {ahead : List Token} {base' : Builder} {errors : List ParseError} {after : State}
    [h : Agrees (.anywhere base base' faults) 0 (ahead.length + 1) step step]
    (he : step input ⟨ahead, base', errors⟩ = (some (), after)) :
    ∃ added builder, step input ⟨ahead, base, faults ++ errors⟩ =
        (some (), ⟨after.ahead, builder, faults ++ after.errors⟩) ∧
      base.Adds added builder ∧ base'.Adds added after.builder := by
  have halike : (Likeness.anywhere base base' faults).alike 0 ⟨ahead, base, faults ++ errors⟩
      ⟨ahead, base', errors⟩ := ⟨rfl, rfl, [], rfl, Builder.abreast_refl base base'⟩
  obtain ⟨hvalue, hstates⟩ := h.agrees input halike (Nat.lt_succ_self _)
  rw [he] at hvalue hstates
  obtain ⟨value, builder, hrun⟩ : ∃ value state,
      step input ⟨ahead, base, faults ++ errors⟩ = (value, state) := ⟨_, _, rfl⟩
  rw [hrun] at hvalue hstates
  obtain rfl : value = some () := hvalue
  obtain ⟨ha, herrors, inner, hl, added, outer, outer', hadds, hadds', hb, hb'⟩ := hstates
  obtain rfl := List.length_eq_zero_iff.1 hl
  refine ⟨added, builder.builder, ?_, ?_, ?_⟩
  · rw [hrun, ← herrors, ← ha]
  · rw [hb]
    exact hadds
  · rw [hb']
    exact hadds'

end Parser

end JavaGraph
