import JavaGraph.Parser.Lookahead
import JavaGraph.Parser.Resume
/-!
# Scans of the tokens ahead

A scan that goes on behind what it has skipped has skipped a token, so it ends, and the bound on
its rounds is never reached. The scans that count open delimiters are begun at one that opens, so
the count is never made less than nothing.
-/

namespace JavaGraph.Parser

/-! ### Scans come to an end -/

/-- The scans that ask the same again behind what they have skipped. -/
inductive Scan where
  | annotations
  | classType
  | variableModifiers
  | typeModifiers
  | packageAnnotations
  | castTypes

/-- What a round of a scan finds: the answer, or where to ask again. -/
inductive Finding where
  | answer (behind : Option (List Token))
  | again (behind : List Token)

/-- Ask again behind something, if it is there. -/
def Finding.behind : Option (List Token) → Finding
  | none => .answer none
  | some behind => .again behind

/-- One round of a scan. -/
def Scan.round (scan : Scan) (ahead : List Token) : Finding :=
  match scan with
  | .annotations =>
    if kindAt ahead 0 = .atSign then .behind (skipAnnotationUse ahead) else .answer (some ahead)
  | .classType =>
    if kindAt ahead 0 = .ident then
      match skipTypeArgumentsOpt (ahead.drop 1) with
      | none => .answer none
      | some behind =>
        if kindAt behind 0 = .dot ∧ kindAt behind 1 = .ident then .again (behind.drop 1)
        else .answer (some behind)
    else .answer none
  | .variableModifiers =>
    if kindAt ahead 0 = .kwFinal then .again (ahead.drop 1)
    else if kindAt ahead 0 = .atSign ∧ kindAt ahead 1 ≠ .kwInterface then
      .behind (skipAnnotationUse ahead)
    else .answer (some ahead)
  | .typeModifiers =>
    if (kindAt ahead 0).isModifier then .again (ahead.drop 1)
    else if kindAt ahead 0 = .atSign ∧ kindAt ahead 1 = .ident then
      .behind (skipLooseAnnotationUse ahead)
    else .answer (some ahead)
  | .packageAnnotations =>
    if kindAt ahead 0 = .atSign ∧ kindAt ahead 1 ≠ .kwInterface then
      .behind (skipLooseAnnotationUse ahead)
    else .answer (some ahead)
  | .castTypes =>
    match skipType ahead with
    | none => .answer none
    | some behind =>
      if kindAt behind 0 = .amp then .again (behind.drop 1) else .answer (some behind)

/-- The scan with at most `fuel` rounds. -/
def Scan.skip : Scan → (fuel : Nat) → List Token → Option (List Token)
  | .annotations => skipAnnotations
  | .classType => skipClassType
  | .variableModifiers => skipVariableModifiers
  | .typeModifiers => skipTypeModifiers
  | .packageAnnotations => skipPackageAnnotations
  | .castTypes => skipCastTypes

/-- The rounds of a scan, with an answer of one's own behind the last one it may have. -/
def Scan.skipOver (scan : Scan) (bottom : List Token → Option (List Token)) :
    (fuel : Nat) → List Token → Option (List Token)
  | 0, ahead => bottom ahead
  | fuel + 1, ahead =>
    match scan.round ahead with
    | .answer behind => behind
    | .again behind => scan.skipOver bottom fuel behind

variable {ahead behind : List Token}

/-- There is a token to skip where one of a kind is. -/
theorem length_drop_lt (h : kindAt ahead 0 ≠ .eof) (count : Nat) :
    (ahead.drop (count + 1)).length < ahead.length := by
  cases ahead with
  | nil => exact absurd rfl h
  | cons token ahead =>
    rw [List.length_drop, List.length_cons]
    omega

theorem length_afterMatching {opening closing : TokenKind} {depth : Nat}
    (h : afterMatching opening closing depth ahead = some behind) :
    behind.length < ahead.length := by
  induction ahead generalizing depth with
  | nil => cases h
  | cons token ahead ih =>
    rw [List.length_cons]
    unfold afterMatching at h
    split at h
    · exact Nat.lt_succ_of_lt (ih h)
    · split at h
      · split at h
        · cases h
        · cases h
          exact Nat.lt_succ_self _
        · exact Nat.lt_succ_of_lt (ih h)
      · exact Nat.lt_succ_of_lt (ih h)

theorem length_skipDotted (ahead : List Token) : (skipDotted ahead).length ≤ ahead.length := by
  fun_induction skipDotted ahead with
  | case1 dot name ahead h ih => exact Nat.le_succ_of_le (Nat.le_succ_of_le ih)
  | case2 => exact Nat.le_refl _
  | case3 => exact Nat.le_refl _

theorem length_skipDotPairs (ahead : List Token) : (skipDotPairs ahead).length ≤ ahead.length := by
  fun_induction skipDotPairs ahead with
  | case1 dot token ahead h ih => exact Nat.le_succ_of_le (Nat.le_succ_of_le ih)
  | case3 => exact Nat.zero_le _
  | _ => exact Nat.le_refl _

theorem length_skipArguments (h : skipArguments ahead = some behind) :
    behind.length ≤ ahead.length := by
  unfold skipArguments at h
  split at h
  · exact Nat.le_of_lt (length_afterMatching h)
  · cases h
    exact Nat.le_refl _

theorem length_skipAnnotationUse (hat : kindAt ahead 0 ≠ .eof)
    (h : skipAnnotationUse ahead = some behind) : behind.length < ahead.length := by
  unfold skipAnnotationUse at h
  split at h
  · exact Nat.lt_of_le_of_lt (Nat.le_trans (length_skipArguments h) (length_skipDotted _))
      (length_drop_lt hat 1)
  · cases h

theorem length_skipLooseAnnotationUse (hat : kindAt ahead 0 ≠ .eof)
    (h : skipLooseAnnotationUse ahead = some behind) : behind.length < ahead.length :=
  Nat.lt_of_le_of_lt (Nat.le_trans (length_skipArguments h) (length_skipDotPairs _)) (length_drop_lt hat 1)

theorem length_skipTypeArguments {depth : Nat} (h : skipTypeArguments depth ahead = some behind) :
    behind.length < ahead.length := by
  induction ahead generalizing depth with
  | nil => cases h
  | cons token ahead ih =>
    rw [List.length_cons]
    unfold skipTypeArguments at h
    split at h
    · exact Nat.lt_succ_of_lt (ih h)
    · split at h
      · split at h
        · cases h
        · cases h
          exact Nat.lt_succ_self _
        · exact Nat.lt_succ_of_lt (ih h)
      · split at h
        · exact Nat.lt_succ_of_lt (ih h)
        · cases h

theorem length_skipTypeArgumentsOpt (h : skipTypeArgumentsOpt ahead = some behind) :
    behind.length ≤ ahead.length := by
  unfold skipTypeArgumentsOpt at h
  split at h
  · exact Nat.le_of_lt (length_skipTypeArguments h)
  · cases h
    exact Nat.le_refl _

theorem length_skipAnnotations {fuel : Nat} (h : skipAnnotations fuel ahead = some behind) :
    behind.length ≤ ahead.length := by
  induction fuel generalizing ahead with
  | zero =>
    cases h
    exact Nat.le_refl _
  | succ fuel ih =>
    unfold skipAnnotations at h
    split at h
    · next hat =>
      obtain ⟨middle, hm, hb⟩ := Option.bind_eq_some_iff.1 h
      have hend : kindAt ahead 0 ≠ .eof := by rw [hat]; decide
      exact Nat.le_trans (ih hb) (Nat.le_of_lt (length_skipAnnotationUse hend hm))
    · cases h
      exact Nat.le_refl _

theorem length_skipClassType {fuel : Nat} (h : skipClassType fuel ahead = some behind) :
    behind.length ≤ ahead.length := by
  induction fuel generalizing ahead with
  | zero => cases h
  | succ fuel ih =>
    unfold skipClassType at h
    split at h
    · obtain ⟨middle, hm, hb⟩ := Option.bind_eq_some_iff.1 h
      have hmiddle : middle.length ≤ ahead.length :=
        Nat.le_trans (length_skipTypeArgumentsOpt hm) (by simp)
      split at hb
      · exact Nat.le_trans (ih hb) (Nat.le_trans (by simp) hmiddle)
      · cases hb
        exact hmiddle
    · cases h

theorem length_skipDimensions (ahead : List Token) :
    (skipDimensions ahead).length ≤ ahead.length := by
  fun_induction skipDimensions ahead with
  | case1 opening closing ahead h ih => exact Nat.le_succ_of_le (Nat.le_succ_of_le ih)
  | _ => exact Nat.le_refl _

theorem length_skipType (h : skipType ahead = some behind) : behind.length ≤ ahead.length := by
  obtain ⟨element, he, rfl⟩ := Option.map_eq_some_iff.1 h
  refine Nat.le_trans (length_skipDimensions element) ?_
  obtain ⟨annotated, ha, hb⟩ := Option.bind_eq_some_iff.1 he
  refine Nat.le_trans ?_ (length_skipAnnotations ha)
  split at hb
  · cases hb
    simp
  · exact length_skipClassType hb

theorem Finding.behind_eq_again {found : Option (List Token)}
    (h : Finding.behind found = .again behind) : found = some behind := by
  cases found with
  | none => cases h
  | some found =>
    cases h
    rfl

/-- A scan that asks again has skipped a token. -/
theorem Scan.length_round (scan : Scan) (h : scan.round ahead = .again behind) :
    behind.length < ahead.length := by
  have hdrop (hend : kindAt ahead 0 ≠ .eof) : (ahead.drop 1).length < ahead.length :=
    length_drop_lt hend 0
  cases scan with
  | annotations =>
    simp only [Scan.round] at h
    split at h
    · next hat =>
      exact length_skipAnnotationUse (by rw [hat]; decide) (Finding.behind_eq_again h)
    · cases h
  | classType =>
    simp only [Scan.round] at h
    split at h
    · next hat =>
      split at h
      · cases h
      · next middle hm =>
        split at h
        · next hdot =>
          cases h
          have hend : kindAt middle 0 ≠ .eof := by rw [hdot.1]; decide
          refine Nat.lt_of_lt_of_le (length_drop_lt hend 0) ?_
          exact Nat.le_trans (length_skipTypeArgumentsOpt hm) (by simp)
        · cases h
    · cases h
  | variableModifiers =>
    simp only [Scan.round] at h
    split at h
    · next hat =>
      cases h
      exact hdrop (by rw [hat]; decide)
    · split at h
      · next hat =>
        exact length_skipAnnotationUse (by rw [hat.1]; decide) (Finding.behind_eq_again h)
      · cases h
  | typeModifiers =>
    simp only [Scan.round] at h
    split at h
    · next hat =>
      cases h
      refine hdrop fun hend => ?_
      rw [hend] at hat
      cases hat
    · split at h
      · next hat =>
        exact length_skipLooseAnnotationUse (by rw [hat.1]; decide) (Finding.behind_eq_again h)
      · cases h
  | packageAnnotations =>
    simp only [Scan.round] at h
    split at h
    · next hat =>
      exact length_skipLooseAnnotationUse (by rw [hat.1]; decide) (Finding.behind_eq_again h)
    · cases h
  | castTypes =>
    simp only [Scan.round] at h
    split at h
    · cases h
    · next middle hm =>
      split at h
      · next hamp =>
        cases h
        have hend : kindAt middle 0 ≠ .eof := by rw [hamp]; decide
        exact Nat.lt_of_lt_of_le (length_drop_lt hend 0) (length_skipType hm)
      · cases h

/-- A scan is its first round and then, if that asks again, the scan from there. -/
theorem Scan.skip_succ (scan : Scan) (fuel : Nat) (ahead : List Token) :
    scan.skip (fuel + 1) ahead =
      match scan.round ahead with
      | .answer behind => behind
      | .again behind => scan.skip fuel behind := by
  have hbehind (found : Option (List Token)) (next : List Token → Option (List Token)) :
      found.bind next =
        match Finding.behind found with
        | .answer behind => behind
        | .again behind => next behind := by
    cases found <;> rfl
  cases scan <;> simp only [Scan.skip, Scan.round]
  case annotations =>
    rw [skipAnnotations]
    split <;> simp [hbehind]
  case classType =>
    rw [skipClassType]
    split
    · cases skipTypeArgumentsOpt (ahead.drop 1) with
      | none => rfl
      | some behind =>
        simp only [Option.bind_eq_bind, Option.bind_some]
        split <;> rfl
    · rfl
  case variableModifiers =>
    rw [skipVariableModifiers]
    split
    · rfl
    · split <;> simp [hbehind]
  case typeModifiers =>
    rw [skipTypeModifiers]
    split
    · rfl
    · split <;> simp [hbehind]
  case packageAnnotations =>
    rw [skipPackageAnnotations]
    split <;> simp [hbehind]
  case castTypes =>
    rw [skipCastTypes]
    cases skipType ahead with
    | none => rfl
    | some behind =>
      simp only [Option.bind_eq_bind, Option.bind_some]
      split <;> rfl

/-- With as many rounds as tokens, whatever a scan would do behind the last round makes no
difference. -/
theorem Scan.skip_eq_over (scan : Scan) (bottom : List Token → Option (List Token))
    {fuel fuel' : Nat} (h : ahead.length ≤ fuel) (h' : ahead.length < fuel') :
    scan.skip fuel ahead = scan.skipOver bottom fuel' ahead := by
  induction fuel generalizing ahead fuel' with
  | zero =>
    obtain rfl : ahead = [] := List.eq_nil_of_length_eq_zero (Nat.le_zero.1 h)
    obtain ⟨fuel', rfl⟩ : ∃ k, fuel' = k + 1 := ⟨fuel' - 1, by omega⟩
    cases scan <;> rfl
  | succ fuel ih =>
    obtain ⟨fuel', rfl⟩ : ∃ k, fuel' = k + 1 := ⟨fuel' - 1, by omega⟩
    rw [Scan.skip_succ, Scan.skipOver]
    cases hround : scan.round ahead with
    | answer behind => rfl
    | again behind =>
      have hless := scan.length_round hround
      exact ih (by omega) (by omega)

/-! ### Depths that are counted -/

/-- A depth was to be made less than nothing. -/
inductive Underflow where
  | underflow

/-- A depth made one less. -/
def lessDepth : Nat → Except Underflow Nat
  | 0 => .error .underflow
  | depth + 1 => .ok depth

/-- `afterMatching` with a depth that fails rather than to become less than nothing. -/
def afterMatchingChecked (opening closing : TokenKind) :
    (depth : Nat) → List Token → Except Underflow (Option (List Token))
  | _, [] => .ok none
  | depth, token :: ahead =>
    if token.kind = opening then afterMatchingChecked opening closing (depth + 1) ahead
    else if token.kind = closing then
      match lessDepth depth with
      | .error fault => .error fault
      | .ok 0 => .ok (some ahead)
      | .ok (depth + 1) => afterMatchingChecked opening closing (depth + 1) ahead
    else afterMatchingChecked opening closing depth ahead

/-- `skipTypeArguments` with a depth that fails rather than to become less than nothing. -/
def skipTypeArgumentsChecked : (depth : Nat) → List Token → Except Underflow (Option (List Token))
  | _, [] => .ok none
  | depth, token :: ahead =>
    if token.kind = .less then skipTypeArgumentsChecked (depth + 1) ahead
    else if token.kind = .greater then
      match lessDepth depth with
      | .error fault => .error fault
      | .ok 0 => .ok (some ahead)
      | .ok (depth + 1) => skipTypeArgumentsChecked (depth + 1) ahead
    else if isTypeArgumentPart token.kind then skipTypeArgumentsChecked depth ahead
    else .ok none

/-- `skipTo` with a depth that fails rather than to become less than nothing. -/
def skipToChecked (resume : Resume) : (forced : Bool) → (depth : Nat) → List Token →
    Except Underflow (List Token × List Token)
  | _, _, [] => .ok ([], [])
  | forced, depth, token :: ahead =>
    if token.kind = .rBrace ∧ depth = 0 then
      .ok (if forced && resume = .declaration then ([token], ahead) else ([], token :: ahead))
    else if token.kind = .semicolon ∧ depth = 0 ∧ resume = .statement then .ok ([token], ahead)
    else if beginsDeclaration token.kind ∧ depth = 0 ∧ resume = .declaration ∧ !forced then
      .ok ([], token :: ahead)
    else if token.kind = .lBrace then
      (skipToChecked resume false (depth + 1) ahead).map fun rest => (token :: rest.1, rest.2)
    else if token.kind = .rBrace then
      match lessDepth depth with
      | .error fault => .error fault
      | .ok depth =>
        if depth = 0 ∧ resume = .statement then .ok ([token], ahead)
        else
          (skipToChecked resume false depth ahead).map fun rest => (token :: rest.1, rest.2)
    else (skipToChecked resume false depth ahead).map fun rest => (token :: rest.1, rest.2)

theorem afterMatchingChecked_succ (opening closing : TokenKind) (depth : Nat)
    (ahead : List Token) :
    afterMatchingChecked opening closing (depth + 1) ahead =
      .ok (afterMatching opening closing (depth + 1) ahead) := by
  induction ahead generalizing depth with
  | nil => rfl
  | cons token ahead ih =>
    unfold afterMatchingChecked afterMatching
    split
    · exact ih _
    · split
      · cases depth with
        | zero => rfl
        | succ depth => exact ih depth
      · exact ih depth

/-- The scan for the delimiter that closes one does not count below nothing. -/
theorem afterMatchingChecked_eq {opening closing : TokenKind} (ho : opening ≠ .eof)
    (h : kindAt ahead 0 = opening) :
    afterMatchingChecked opening closing 0 ahead = .ok (afterMatching opening closing 0 ahead) := by
  cases ahead with
  | nil => exact absurd h.symm ho
  | cons token ahead =>
    have hk : token.kind = opening := h
    unfold afterMatchingChecked afterMatching
    rw [if_pos hk, if_pos hk]
    exact afterMatchingChecked_succ opening closing 0 ahead

theorem skipTypeArgumentsChecked_succ (depth : Nat) (ahead : List Token) :
    skipTypeArgumentsChecked (depth + 1) ahead = .ok (skipTypeArguments (depth + 1) ahead) := by
  induction ahead generalizing depth with
  | nil => rfl
  | cons token ahead ih =>
    unfold skipTypeArgumentsChecked skipTypeArguments
    split
    · exact ih _
    · split
      · cases depth with
        | zero => rfl
        | succ depth => exact ih depth
      · split
        · exact ih depth
        · rfl

/-- The scan of type arguments does not count below nothing. -/
theorem skipTypeArgumentsChecked_eq (h : kindAt ahead 0 = .less) :
    skipTypeArgumentsChecked 0 ahead = .ok (skipTypeArguments 0 ahead) := by
  cases ahead with
  | nil => cases h
  | cons token ahead =>
    have hk : token.kind = .less := h
    unfold skipTypeArgumentsChecked skipTypeArguments
    rw [if_pos hk, if_pos hk]
    exact skipTypeArgumentsChecked_succ 0 ahead

/-- Recovery does not count below nothing, wherever it begins. -/
theorem skipToChecked_eq (resume : Resume) (forced : Bool) (depth : Nat) (ahead : List Token) :
    skipToChecked resume forced depth ahead = .ok (skipTo resume forced depth ahead) := by
  induction ahead generalizing forced depth with
  | nil => cases depth <;> rfl
  | cons token ahead ih =>
    cases depth with
    | zero =>
      unfold skipToChecked skipTo
      by_cases hclose : token.kind = .rBrace
      · simp [hclose]
      · by_cases hopen : token.kind = .lBrace
        · simp [hopen, ih, Except.map, beginsDeclaration]
        · simp only [hclose, hopen, ih, Except.map, false_and, if_false, true_and]
          split
          · rfl
          · split <;> rfl
    | succ depth =>
      unfold skipToChecked skipTo
      by_cases hclose : token.kind = .rBrace
      · by_cases hstop : depth = 0 ∧ resume = .statement
        · simp [hclose, lessDepth, hstop]
        · simp [hclose, lessDepth, hstop, ih, Except.map]
      · simp [hclose, ih, Except.map]
        split <;> rfl

end JavaGraph.Parser
