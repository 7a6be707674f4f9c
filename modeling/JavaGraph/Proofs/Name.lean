import JavaGraph.Name
/-!
# The grammar of qualified names

A text is cut into pieces at every `.` and `$`, and each piece is judged by its characters and by
the separator before it. The parser accepts a text exactly if it is not empty and all of its pieces
are well formed, and else reports the leftmost that is not. An accepted name is taken apart along
the same separators.
-/

namespace JavaGraph

namespace Name

/-- A stretch of a text between two separators, with the separator before it if there is one. -/
structure Piece where
  opener : Option Char
  chars : List Char
deriving DecidableEq, Repr

/-- Characters cut at every separator; `opener` stands before them. -/
def piecesFrom (opener : Option Char) (cs : List Char) : List Piece :=
  List.zipWith Piece.mk (opener :: (cs.filter isSeparator).map some) (cs.splitOnP isSeparator)

/-- The pieces of a text. -/
def pieces (text : String) : List Piece :=
  piecesFrom none text.toList

/-- An identifier begins with a letter or an underscore. -/
def Identifier (cs : List Char) : Prop :=
  ∃ c rest, cs = c :: rest ∧ (c = '_' ∨ Text.isXidStart c) ∧ ∀ d ∈ rest, Text.isXidContinue d

/-- The number of a local or anonymous type, with or without its name. -/
def Numbered (cs : List Char) : Prop :=
  ∃ digits name, cs = digits ++ name ∧ digits ≠ [] ∧ (∀ d ∈ digits, d.isDigit) ∧
    (name = [] ∨ Identifier name)

namespace Piece

/-- A piece is an identifier, or directly behind a `$` a number. -/
def WellFormed (piece : Piece) : Prop :=
  Identifier piece.chars ∨ piece.opener = some '$' ∧ Numbered piece.chars

/-- What is reported of a piece of `text` that is not well formed. -/
def fault (text : String) (piece : Piece) : NameError :=
  if piece.chars = [] then .emptySegment text
  else .invalidSegment text (String.ofList piece.chars)

/-- The piece as the parser keeps it. -/
def segment (piece : Piece) : Segment :=
  ⟨piece.opener == some '$', piece.chars⟩

end Piece

variable {c : Char} {cs : List Char} {opener : Option Char} {piece : Piece}

/-! ### Cutting a text -/

/-- A separator ends an empty piece and opens the next. -/
theorem piecesFrom_separator (h : isSeparator c = true) :
    piecesFrom opener (c :: cs) = ⟨opener, []⟩ :: piecesFrom (some c) cs := by
  simp [piecesFrom, List.splitOnP_cons_eq_if_modifyHead, h]

/-- Any other character goes in front of the first piece. -/
theorem piecesFrom_other (h : isSeparator c = false) (opener : Option Char) (cs : List Char) :
    ∃ chars rest, piecesFrom opener cs = ⟨opener, chars⟩ :: rest ∧
      piecesFrom opener (c :: cs) = ⟨opener, c :: chars⟩ :: rest := by
  unfold piecesFrom
  rw [List.splitOnP_cons_eq_if_modifyHead, if_neg (by simp [h]),
    List.filter_cons_of_neg (by simp [h])]
  cases hs : cs.splitOnP isSeparator with
  | nil => exact absurd hs (List.splitOnP_ne_nil _ _)
  | cons first rest => exact ⟨first, _, rfl, rfl⟩

/-- The pieces put together again are the text. -/
theorem flatMap_piecesFrom (opener : Option Char) (cs : List Char) :
    (piecesFrom opener cs).flatMap (fun piece => piece.opener.toList ++ piece.chars) =
      opener.toList ++ cs := by
  induction cs generalizing opener with
  | nil => simp [piecesFrom]
  | cons c cs ih =>
    cases h : isSeparator c with
    | true => simp [piecesFrom_separator h, ih]
    | false =>
      obtain ⟨chars, rest, hp, hc⟩ := piecesFrom_other h opener cs
      have ih := ih opener
      rw [hp] at ih
      rw [hc]
      simpa using ih

example : pieces "a.B$1" = [⟨none, ['a']⟩, ⟨some '.', ['B']⟩, ⟨some '$', ['1']⟩] := by decide

/-- No piece has a separator in it. -/
theorem isSeparator_of_mem_piecesFrom (h : piece ∈ piecesFrom opener cs) (hc : c ∈ piece.chars) :
    isSeparator c = false := by
  induction cs generalizing opener piece with
  | nil =>
    simp only [piecesFrom, List.filter_nil, List.map_nil, List.splitOnP_nil, List.zipWith_cons_cons,
      List.zipWith_nil_left, List.mem_singleton] at h
    simp [h] at hc
  | cons d cs ih =>
    cases hd : isSeparator d with
    | true =>
      rw [piecesFrom_separator hd, List.mem_cons] at h
      obtain rfl | h := h
      · simp at hc
      · exact ih h hc
    | false =>
      obtain ⟨chars, rest, hp, hs⟩ := piecesFrom_other hd opener cs
      rw [hs, List.mem_cons] at h
      obtain rfl | h := h
      · obtain rfl | hc := List.mem_cons.1 hc
        · exact hd
        · exact ih (hp ▸ List.mem_cons_self) hc
      · exact ih (hp ▸ List.mem_cons_of_mem _ h) hc

/-- The parser cuts a text into its pieces. -/
theorem segments_eq (opener : Option Char) (cs : List Char) :
    segments (opener == some '$') cs = (piecesFrom opener cs).map Piece.segment := by
  induction cs generalizing opener with
  | nil => rfl
  | cons c cs ih =>
    rw [segments]
    split
    · next h =>
      rw [piecesFrom_separator h, List.map_cons, ← ih]
      simp [Piece.segment]
    · next h =>
      obtain ⟨chars, rest, hp, hc⟩ := piecesFrom_other (by simpa using h) opener cs
      rw [ih, hp, hc]
      rfl

/-! ### Judging a piece -/

/-- Without a `$` in it, what the parser takes for an identifier is one. -/
theorem isIdentifier_iff (h : ∀ c ∈ cs, isSeparator c = false) :
    isIdentifier cs = true ↔ Identifier cs := by
  have h' : ∀ c ∈ cs, c ≠ '$' := by
    rintro c hc rfl
    simpa [isSeparator] using h _ hc
  cases cs with
  | nil => simp [isIdentifier, Identifier]
  | cons c cs =>
    have hc := h' c List.mem_cons_self
    have hcs : ∀ d ∈ cs, d ≠ '$' := fun d hd => h' d (List.mem_cons_of_mem _ hd)
    simp only [isIdentifier, Identifier, Bool.and_eq_true, Bool.or_eq_true, beq_iff_eq, hc,
      or_false, List.all_eq_true, List.cons.injEq]
    constructor
    · rintro ⟨hs, ha⟩
      exact ⟨c, cs, ⟨rfl, rfl⟩, hs, fun d hd => (ha d hd).resolve_left (hcs d hd)⟩
    · rintro ⟨_, _, ⟨rfl, rfl⟩, hs, ha⟩
      exact ⟨hs, fun d hd => .inr (ha d hd)⟩

/-- No identifier begins with a digit. -/
theorem Identifier.isDigit_head (h : Identifier (c :: cs)) : c.isDigit = false := by
  obtain ⟨_, _, he, hs, -⟩ := h
  cases he
  obtain rfl | hs := hs
  · rfl
  · rw [Bool.eq_false_iff]
    intro hd
    simp only [Char.isDigit, ge_iff_le, Bool.and_eq_true, decide_eq_true_eq,
      UInt32.le_iff_toNat_le] at hd
    change 48 ≤ c.toNat ∧ c.toNat ≤ 57 at hd
    rw [Text.isXidStart, if_pos (by omega)] at hs
    have hletter : 65 ≤ c.toNat ∧ c.toNat ≤ 90 ∨ 97 ≤ c.toNat ∧ c.toNat ≤ 122 := by
      obtain hs | hs := Bool.or_eq_true_iff.1 hs
      · have hupper : c.val ≥ 'A'.val ∧ c.val ≤ 'Z'.val := of_decide_eq_true hs
        exact .inl hupper
      · have hlower := Bool.and_eq_true_iff.1 hs
        exact .inr ⟨of_decide_eq_true hlower.1, of_decide_eq_true hlower.2⟩
    omega

/-- The digits of a number are the longest run of them. -/
theorem isNumbered_iff (h : ∀ c ∈ cs, isSeparator c = false) :
    isNumbered cs = true ↔ Numbered cs := by
  simp only [isNumbered, Bool.and_eq_true, decide_eq_true_eq, Bool.or_eq_true, List.isEmpty_iff]
  constructor
  · rintro ⟨hl, hn⟩
    have hc : cs.takeWhile Char.isDigit ++ cs.dropWhile Char.isDigit = cs :=
      List.takeWhile_append_dropWhile
    refine ⟨_, _, hc.symm, ?_, fun d => List.all_eq_true.1 List.all_takeWhile d, ?_⟩
    · intro hd
      rw [hd, List.nil_append] at hc
      rw [hc] at hl
      exact absurd hl (Nat.lt_irrefl _)
    · have hm : ∀ c ∈ cs.dropWhile Char.isDigit, isSeparator c = false := fun c hd =>
        h c ((List.dropWhile_sublist _).subset hd)
      exact hn.imp_right (isIdentifier_iff hm).1
  · rintro ⟨digits, name, rfl, hd, hds, hn⟩
    have hw : (digits ++ name).dropWhile Char.isDigit = name := by
      rw [List.dropWhile_append_of_pos hds]
      obtain rfl | hi := hn
      · rfl
      · obtain ⟨c, rest, rfl, -⟩ := id hi
        rw [List.dropWhile_cons_of_neg (by simp [hi.isDigit_head])]
    have hm : ∀ c ∈ name, isSeparator c = false := fun c hc => h c (List.mem_append_right _ hc)
    rw [hw, isIdentifier_iff hm, List.length_append]
    have := List.length_pos_iff.2 hd
    exact ⟨by omega, hn⟩

/-- The parser accepts a segment that is an identifier or a number behind a `$`. -/
theorem segmentFault?_eq_none {text : String} {segment : Segment} :
    segmentFault? text segment = none ↔
      isIdentifier segment.chars = true ∨
        segment.nested = true ∧ isNumbered segment.chars = true := by
  unfold segmentFault?
  split
  · next he =>
    rw [List.isEmpty_iff] at he
    simp [he, isIdentifier, isNumbered]
  · simp only [ite_eq_left_iff, reduceCtorEq, imp_false, Decidable.not_not, Bool.or_eq_true,
      Bool.and_eq_true]

/-- The fault of a segment, if it has one, says whether it is empty. -/
theorem segmentFault?_eq_some {text : String} {segment : Segment} {fault : NameError}
    (h : segmentFault? text segment = some fault) :
    fault = if segment.chars = [] then .emptySegment text
      else .invalidSegment text (String.ofList segment.chars) := by
  unfold segmentFault? at h
  split at h
  · next he =>
    rw [if_pos (List.isEmpty_iff.1 he)]
    exact (Option.some.inj h).symm
  · next he =>
    rw [if_neg (fun hn => he (List.isEmpty_iff.2 hn))]
    split at h
    · simp at h
    · exact (Option.some.inj h).symm

/-- A piece has no fault exactly if it is well formed. -/
theorem segmentFault?_segment {text : String} (h : piece ∈ piecesFrom opener cs) :
    segmentFault? text piece.segment = none ↔ piece.WellFormed := by
  have hs : ∀ c ∈ piece.chars, isSeparator c = false := fun c => isSeparator_of_mem_piecesFrom h
  rw [Piece.WellFormed, ← isIdentifier_iff hs, ← isNumbered_iff hs, segmentFault?_eq_none]
  simp [Piece.segment]

/-- The fault of a text that is not empty is that of its leftmost ill-formed piece. -/
theorem fault?_eq {text : String} (h : text ≠ "") :
    fault? text = (pieces text).findSome? (segmentFault? text ∘ Piece.segment) := by
  rw [fault?, if_neg (by simpa using h), pieces, ← List.findSome?_map, ← segments_eq]
  rfl

/-- A text has no fault exactly if it is not empty and all of its pieces are well formed. -/
theorem fault?_eq_none_iff {text : String} :
    fault? text = none ↔ text ≠ "" ∧ ∀ piece ∈ pieces text, piece.WellFormed := by
  by_cases h : text = ""
  · subst h
    simp [fault?]
  · rw [fault?_eq h, List.findSome?_eq_none_iff]
    simp only [ne_eq, h, not_false_eq_true, true_and]
    exact forall₂_congr fun piece hp => segmentFault?_segment hp

/-- A text that is not empty has the fault of its leftmost ill-formed piece. -/
theorem fault?_leftmost {text : String} {before after : List Piece} (h : text ≠ "")
    (hp : pieces text = before ++ piece :: after) (hb : ∀ earlier ∈ before, earlier.WellFormed)
    (hw : ¬ piece.WellFormed) : fault? text = some (piece.fault text) := by
  have hm : ∀ earlier ∈ before ++ piece :: after, earlier ∈ pieces text := fun _ he => hp ▸ he
  have hn : segmentFault? text piece.segment ≠ none :=
    fun he => hw ((segmentFault?_segment (hm piece (by simp))).1 he)
  obtain ⟨fault, hf⟩ := Option.ne_none_iff_exists'.1 hn
  rw [fault?_eq h, hp, List.findSome?_eq_some_iff]
  refine ⟨before, piece, after, rfl, ?_, fun earlier he => ?_⟩
  · rw [Function.comp_apply, hf, segmentFault?_eq_some hf]
    rfl
  · exact (segmentFault?_segment (hm earlier (by simp [he]))).2 (hb earlier he)

end Name

namespace QualifiedName

open Name

/-- A package is what stands before the last `.` in front of the first `$`. -/
def Packaged (text package : String) : Prop :=
  ∃ outermost nested, text.toList = package.toList ++ '.' :: outermost ++ nested ∧
    '$' ∉ package.toList ∧ '.' ∉ outermost ∧ '$' ∉ outermost ∧ ∀ c ∈ nested.head?, c = '$'

variable {c : Char} {cs front rest : List Char}

/-- The longest run without a character ends where the character first stands. -/
theorem takeWhile_ne_eq_iff :
    cs.takeWhile (· ≠ c) = front ↔
      ∃ rest, cs = front ++ rest ∧ c ∉ front ∧ ∀ d ∈ rest.head?, d = c := by
  constructor
  · rintro rfl
    refine ⟨cs.dropWhile (· ≠ c), List.takeWhile_append_dropWhile.symm, fun hm => ?_,
      fun d hd => ?_⟩
    · simpa using List.all_eq_true.1 List.all_takeWhile c hm
    · have := List.head?_dropWhile_not (· ≠ c) cs
      rw [hd] at this
      simpa using this
  · rintro ⟨rest, rfl, hf, hr⟩
    rw [List.takeWhile_append_of_pos fun d hd => by simpa using ne_of_mem_of_not_mem hd hf]
    cases rest with
    | nil => simp
    | cons d rest => simp [hr d rfl]

/-- What follows the longest run without a character begins with it. -/
theorem dropWhile_ne_eq_cons_iff :
    cs.dropWhile (· ≠ c) = c :: rest ↔ ∃ front, cs = front ++ c :: rest ∧ c ∉ front := by
  constructor
  · intro h
    refine ⟨cs.takeWhile (· ≠ c), ?_, fun hm => ?_⟩
    · rw [← h, List.takeWhile_append_dropWhile]
    · simpa using List.all_eq_true.1 List.all_takeWhile c hm
  · rintro ⟨front, rfl, hf⟩
    rw [List.dropWhile_append_of_pos fun d hd => by simpa using ne_of_mem_of_not_mem hd hf]
    simp

/-- The simple name is the last piece. -/
theorem getLast?_pieces (name : QualifiedName) :
    (pieces name.text).getLast?.map (fun piece => String.ofList piece.chars) =
      some name.simpleName := by
  have hs : segments false name.text.toList = (pieces name.text).map Piece.segment :=
    segments_eq none _
  have hn : (pieces name.text).getLast? ≠ none := by
    rw [Ne, List.getLast?_eq_none_iff, ← List.map_eq_nil_iff, ← hs]
    exact segments_ne_nil _ _
  obtain ⟨piece, hp⟩ := Option.ne_none_iff_exists'.1 hn
  rw [simpleName, hs, List.getLast?_map, hp]
  rfl

/-- The package is looked for in the text in front of the first `$`, from its end. -/
theorem package_eq_iff_dropWhile {name : QualifiedName} {package : String} :
    name.package = some package ↔
      (name.text.toList.takeWhile (· ≠ '$')).reverse.dropWhile (· ≠ '.') =
        '.' :: package.toList.reverse := by
  rw [QualifiedName.package]
  split
  · next h =>
    rw [h]
    simp
  · next c reversed h =>
    have hc := List.head?_dropWhile_not (· ≠ '.') (name.text.toList.takeWhile (· ≠ '$')).reverse
    rw [h] at hc ⊢
    simp only [List.head?_cons, ne_eq, decide_not, Bool.not_eq_eq_eq_not, Bool.not_false,
      decide_eq_true_eq] at hc
    simp only [hc, Option.some.injEq, List.cons.injEq, true_and]
    constructor
    · rintro rfl
      simp
    · rintro rfl
      simp

/-- The package of a name is what its text says. -/
theorem package_eq_some_iff {name : QualifiedName} {package : String} :
    name.package = some package ↔ Packaged name.text package := by
  rw [package_eq_iff_dropWhile, dropWhile_ne_eq_cons_iff]
  constructor
  · rintro ⟨last, he, hl⟩
    have ho : name.text.toList.takeWhile (· ≠ '$') = package.toList ++ '.' :: last.reverse := by
      simpa using congrArg List.reverse he
    obtain ⟨nested, hn, hd, hh⟩ := takeWhile_ne_eq_iff.1 ho
    simp only [List.mem_append, List.mem_cons, not_or] at hd
    exact ⟨last.reverse, nested, hn, hd.1, by simpa using hl, hd.2.2, hh⟩
  · rintro ⟨outermost, nested, hn, hp, ho, hd, hh⟩
    have hf : '$' ∉ package.toList ++ '.' :: outermost := by simp [hp, hd]
    rw [takeWhile_ne_eq_iff.2 ⟨nested, hn, hf, hh⟩]
    exact ⟨outermost.reverse, by simp, by simpa using ho⟩

/-- The parser accepts a text exactly if it is not empty and all of its pieces are well formed. It
refuses the empty text as such and any other for its leftmost ill-formed piece, and it takes an
accepted text apart along the separators. -/
theorem parse_grammar (text : String) :
    ((∃ name, parse text = .ok name) ↔
      text ≠ "" ∧ ∀ piece ∈ pieces text, piece.WellFormed) ∧
    (text = "" → parse text = .error .empty) ∧
    (text ≠ "" → ∀ before piece after, pieces text = before ++ piece :: after →
      (∀ earlier ∈ before, earlier.WellFormed) → ¬ piece.WellFormed →
        parse text = .error (piece.fault text)) ∧
    ∀ name, parse text = .ok name →
      name.text = text ∧
      (pieces text).getLast?.map (fun piece => String.ofList piece.chars) = some name.simpleName ∧
      ∀ package, name.package = some package ↔ Packaged text package := by
  refine ⟨?_, ?_, ?_, ?_⟩
  · rw [← fault?_eq_none_iff]
    constructor
    · rintro ⟨name, h⟩
      rw [← text_of_parse h]
      exact name.faultless
    · intro h
      exact ⟨⟨text, h⟩, parse_eq_ok_iff.2 rfl⟩
  · rintro rfl
    rfl
  · intro h before piece after hp hb hw
    exact parse_eq_error_iff.2 (fault?_leftmost h hp hb hw)
  · intro name h
    obtain rfl := text_of_parse h
    exact ⟨rfl, getLast?_pieces name, fun package => package_eq_some_iff⟩

end QualifiedName

end JavaGraph
