import JavaGraph.Proofs.Name
import JavaGraph.Scan.Declaration
/-!
# Names in a file

A name comes into a file in three ways: an import and a reference write it as dotted identifiers,
and a declaration adds the name of a type to that of its package or of the type around it. All of
them put a `.` or a `$` between two segments.

Which of the two it is makes no difference for identifiers, since none is a number. What matters is
that an identifier may have a `$` in it, where the name is cut as well: dotted identifiers are a name
exactly if each `$` in them parts a type from a nested one. An import or a reference comes to the
name under which the type is declared.
-/

namespace JavaGraph

namespace Name

variable {c separator : Char} {cs ds rest word : List Char} {opener : Option Char}

/-! ### Texts put together -/

/-- Characters are cut into well-formed pieces if `opener` stands before them. -/
def WellCut (opener : Option Char) (cs : List Char) : Prop :=
  ∀ piece ∈ piecesFrom opener cs, piece.WellFormed

/-- A separator between two texts parts their pieces. -/
theorem piecesFrom_append (h : isSeparator separator = true) (opener : Option Char)
    (cs ds : List Char) :
    piecesFrom opener (cs ++ separator :: ds) =
      piecesFrom opener cs ++ piecesFrom (some separator) ds := by
  induction cs generalizing opener with
  | nil => exact piecesFrom_separator h
  | cons c cs ih =>
    rw [List.cons_append]
    cases hc : isSeparator c with
    | true => rw [piecesFrom_separator hc, piecesFrom_separator hc, ih, List.cons_append]
    | false =>
      obtain ⟨chars, others, hp, hx⟩ := piecesFrom_other hc opener cs
      obtain ⟨chars', others', hp', hx'⟩ := piecesFrom_other hc opener (cs ++ separator :: ds)
      rw [ih, hp, List.cons_append, List.cons.injEq] at hp'
      obtain ⟨hfirst, rfl⟩ := hp'
      cases hfirst
      rw [hx, hx', List.cons_append]

/-- A text is well cut exactly if both parts at a separator are. -/
theorem wellCut_append (h : isSeparator separator = true) :
    WellCut opener (cs ++ separator :: ds) ↔
      WellCut opener cs ∧ WellCut (some separator) ds := by
  unfold WellCut
  rw [piecesFrom_append h, List.forall_mem_append]

/-- A text without a separator is one piece. -/
theorem piecesFrom_word (h : ∀ c ∈ word, isSeparator c = false) :
    piecesFrom opener word = [⟨opener, word⟩] := by
  induction word with
  | nil => rfl
  | cons c word ih =>
    obtain ⟨chars, others, hp, hx⟩ := piecesFrom_other (h c List.mem_cons_self) opener word
    rw [ih fun d hd => h d (List.mem_cons_of_mem _ hd)] at hp
    cases hp
    exact hx

/-- Such a text is well cut exactly if it is a well-formed piece. -/
theorem wellCut_word (h : ∀ c ∈ word, isSeparator c = false) :
    WellCut opener word ↔ Piece.WellFormed ⟨opener, word⟩ := by
  unfold WellCut
  rw [piecesFrom_word h, List.forall_mem_singleton]

/-! ### Identifiers with a `$` in them -/

/-- A letter or an underscore, which can begin a segment. -/
def Begins (c : Char) : Prop := c = '_' ∨ Text.isXidStart c

/-- What may stand behind a `$`: something that begins with a letter or an underscore, or with a
number, behind which there is such a character, the end, or another `$`. -/
def Follows (cs : List Char) : Prop :=
  ∃ digits rest, cs = digits ++ rest ∧ (∀ d ∈ digits, d.isDigit) ∧
    ((∃ c ∈ rest.head?, Begins c) ∨ digits ≠ [] ∧ ∀ c ∈ rest.head?, c = '$')

/-- Every `$` in an identifier parts a type from one that is nested in it: none stands at the
beginning, and something follows each of them. -/
structure Nests (identifier : List Char) : Prop where
  begins : identifier.head? ≠ some '$'
  follows : ∀ after, '$' :: after <:+ identifier → Follows after

/-- A character of an identifier. -/
def Letter (c : Char) : Prop := c = '$' ∨ Text.isXidContinue c

/-- A `$` does not begin a segment. -/
theorem not_begins_dollar : ¬ Begins '$' := by
  unfold Begins
  decide

/-- What can go on with an identifier is no separator, but for a `$`. -/
theorem Letter.isSeparator_eq (h : Letter c) (hc : c ≠ '$') : isSeparator c = false := by
  rw [← Bool.not_eq_true]
  intro hs
  unfold isSeparator at hs
  rw [Bool.or_eq_true, beq_iff_eq, beq_iff_eq] at hs
  rcases hs with rfl | rfl
  · rcases h with h | h
    · cases h
    · revert h
      decide
  · exact hc rfl

/-- What the parser takes for an identifier has letters only. -/
theorem letter_of_isIdentifier (h : isIdentifier cs = true) : ∀ c ∈ cs, Letter c := by
  cases cs with
  | nil => exact nofun
  | cons c cs =>
    simp only [isIdentifier, Bool.and_eq_true, Bool.or_eq_true, beq_iff_eq,
      List.all_eq_true] at h
    obtain ⟨(rfl | rfl) | hs, ha⟩ := h
    · exact List.forall_mem_cons.2 ⟨.inr (by decide), ha⟩
    · exact List.forall_mem_cons.2 ⟨.inl rfl, ha⟩
    · exact List.forall_mem_cons.2 ⟨.inr (Text.isXidContinue_of_isXidStart hs), ha⟩

/-- It does not begin with a digit. -/
theorem begins_of_isIdentifier (h : isIdentifier (c :: cs) = true) (hc : c ≠ '$') : Begins c := by
  simp only [isIdentifier, Bool.and_eq_true, Bool.or_eq_true, beq_iff_eq, hc, or_false] at h
  exact h.1

/-- No digit is a `$`. -/
theorem ne_dollar_of_isDigit (h : c.isDigit = true) : c ≠ '$' := by
  rintro rfl
  exact absurd h (by decide)

/-- Digits in front of a text that ends in a word, or goes on with a `$`, are digits of the word. -/
theorem digits_of_append {digits tail : List Char} (hd : ∀ d ∈ digits, d.isDigit)
    (hr : ∀ c ∈ rest.head?, c = '$') (he : word ++ rest = digits ++ tail) :
    ∃ name, word = digits ++ name ∧ tail = name ++ rest := by
  rcases List.append_eq_append_iff.1 he with ⟨more, rfl, rfl⟩ | h
  · cases more with
    | nil => exact ⟨[], by simp, rfl⟩
    | cons c more =>
      have hc : c ∈ word ++ c :: more := List.mem_append_right _ List.mem_cons_self
      exact absurd (hr c rfl) (ne_dollar_of_isDigit (hd c hc))
  · exact h

/-- A word is an identifier or a number exactly if it may stand behind a `$`, at the end or in front
of another `$`. -/
theorem follows_append (hw : ∀ c ∈ word, c ≠ '$' ∧ Text.isXidContinue c)
    (hr : ∀ c ∈ rest.head?, c = '$') :
    Follows (word ++ rest) ↔ Identifier word ∨ Numbered word := by
  constructor
  · rintro ⟨digits, tail, he, hd, ht⟩
    obtain ⟨name, rfl, rfl⟩ := digits_of_append hd hr he
    cases name with
    | nil =>
      have hn : digits ≠ [] := by
        rintro rfl
        obtain ⟨c, hc, hb⟩ | h := ht
        · exact not_begins_dollar (hr c hc ▸ hb)
        · exact h.1 rfl
      exact .inr ⟨digits, [], rfl, hn, hd, .inl rfl⟩
    | cons c name =>
      have hm : ∀ d ∈ c :: name, d ∈ digits ++ c :: name := fun d => List.mem_append_right _
      have hb : Begins c := by
        obtain ⟨d, hd, hb⟩ | h := ht
        · exact Option.mem_some_iff.1 hd ▸ hb
        · exact absurd (h.2 c rfl) (hw c (hm c List.mem_cons_self)).1
      have hi : Identifier (c :: name) :=
        ⟨c, name, rfl, hb, fun d hd => (hw d (hm d (List.mem_cons_of_mem _ hd))).2⟩
      by_cases hn : digits = []
      · subst hn
        exact .inl hi
      · exact .inr ⟨digits, _, rfl, hn, hd, .inr hi⟩
  · rintro (⟨c, word, rfl, hb, -⟩ | ⟨digits, name, rfl, hn, hd, rfl | ⟨c, name, rfl, hb, -⟩⟩)
    · exact ⟨[], _, rfl, nofun, .inl ⟨c, rfl, hb⟩⟩
    · exact ⟨digits, rest, by simp, hd, .inr ⟨hn, hr⟩⟩
    · exact ⟨digits, _, List.append_assoc _ _ _, hd, .inl ⟨c, rfl, hb⟩⟩

/-- Letters begin with a word, which ends where they do or where the first `$` stands. -/
theorem exists_word (h : ∀ c ∈ cs, Letter c) :
    ∃ word, (∀ c ∈ word, c ≠ '$' ∧ Text.isXidContinue c) ∧
      (cs = word ∨ ∃ after, cs = word ++ '$' :: after ∧ ∀ c ∈ after, Letter c) := by
  induction cs with
  | nil => exact ⟨[], nofun, .inl rfl⟩
  | cons c cs ih =>
    obtain ⟨hc, hcs⟩ := List.forall_mem_cons.1 h
    by_cases hd : c = '$'
    · subst hd
      exact ⟨[], nofun, .inr ⟨cs, rfl, hcs⟩⟩
    · obtain ⟨word, hw, hr⟩ := ih hcs
      refine ⟨c :: word, List.forall_mem_cons.2 ⟨⟨hd, hc.resolve_left hd⟩, hw⟩, ?_⟩
      obtain rfl | ⟨after, rfl, ha⟩ := hr
      · exact .inl rfl
      · exact .inr ⟨after, rfl, ha⟩

/-- The text behind a `$` that stands behind a word is that behind the first `$`, or further on. -/
theorem dollar_suffix_append (hw : ∀ c ∈ word, c ≠ '$') (after : List Char) :
    '$' :: after <:+ word ++ '$' :: rest ↔ after = rest ∨ '$' :: after <:+ rest := by
  induction word with
  | nil => rw [List.nil_append, List.suffix_cons_iff, List.cons.injEq, and_iff_right rfl]
  | cons c word ih =>
    obtain ⟨hc, hcs⟩ := List.forall_mem_cons.1 hw
    rw [List.cons_append, List.suffix_cons_iff, List.cons.injEq, ih hcs]
    simp [hc.symm]

/-- No `$` stands in a word. -/
theorem not_dollar_suffix (hw : ∀ c ∈ word, c ≠ '$') (after : List Char) :
    ¬ '$' :: after <:+ word :=
  fun h => hw '$' (h.subset List.mem_cons_self) rfl

/-- A word is well cut behind a `$` exactly if it is an identifier or a number. -/
theorem wellCut_dollar_word (hw : ∀ c ∈ word, c ≠ '$' ∧ Text.isXidContinue c) :
    WellCut (some '$') word ↔ Identifier word ∨ Numbered word := by
  rw [wellCut_word fun c hc => Letter.isSeparator_eq (.inr (hw c hc).2) (hw c hc).1]
  simp [Piece.WellFormed]

/-- Behind a `$`, letters are well cut exactly if they may stand there, and so may what is behind
each `$` among them. -/
theorem wellCut_dollar (cs : List Char) (h : ∀ c ∈ cs, Letter c) :
    WellCut (some '$') cs ↔ Follows cs ∧ ∀ after, '$' :: after <:+ cs → Follows after := by
  obtain ⟨word, hw, rfl | ⟨rest, rfl, hl⟩⟩ := exists_word h
  · have hf : Follows (_ ++ []) ↔ _ := follows_append hw nofun
    rw [List.append_nil] at hf
    rw [wellCut_dollar_word hw, hf, and_iff_left fun after ha =>
      absurd ha (not_dollar_suffix (fun c hc => (hw c hc).1) after)]
  · have hr : ∀ c ∈ ('$' :: rest).head?, c = '$' := by simp
    rw [wellCut_append rfl, wellCut_dollar_word hw, follows_append hw hr, wellCut_dollar rest hl]
    simp only [dollar_suffix_append fun c hc => (hw c hc).1, or_imp, forall_and, forall_eq]
termination_by cs.length
decreasing_by
  subst cs
  rw [List.length_append, List.length_cons]
  omega

/-- A word that does not begin with a digit is an identifier, wherever it stands. -/
theorem wellCut_word_cons (hw : ∀ d ∈ c :: word, d ≠ '$' ∧ Text.isXidContinue d) (hb : Begins c) :
    WellCut opener (c :: word) := by
  rw [wellCut_word fun d hd => Letter.isSeparator_eq (.inr (hw d hd).2) (hw d hd).1]
  exact .inl ⟨c, word, rfl, hb, fun d hd => (hw d (List.mem_cons_of_mem _ hd)).2⟩

/-- An empty piece is not well cut. -/
theorem not_wellCut_nil : ¬ WellCut opener [] := by
  rw [wellCut_word (List.forall_mem_nil _)]
  rintro (⟨_, _, he, -⟩ | ⟨-, _, _, he, hn, -⟩)
  · cases he
  · exact hn (List.append_eq_nil_iff.1 he.symm).1

/-- An identifier is well cut exactly if each `$` in it parts a type from a nested one. -/
theorem wellCut_identifier (h : isIdentifier cs = true) : WellCut opener cs ↔ Nests cs := by
  obtain ⟨word, hw, hr⟩ := exists_word (letter_of_isIdentifier h)
  have hd : ∀ c ∈ word, c ≠ '$' := fun c hc => (hw c hc).1
  cases word with
  | nil =>
    obtain rfl | ⟨rest, rfl, -⟩ := hr
    · cases h
    · exact iff_of_false (fun hc => not_wellCut_nil ((wellCut_append rfl).1 hc).1) fun hn =>
        hn.begins rfl
  | cons c word =>
    have hc : c ≠ '$' := hd c List.mem_cons_self
    obtain rfl | ⟨rest, rfl, hl⟩ := hr
    · have hb := begins_of_isIdentifier h hc
      refine iff_of_true (wellCut_word_cons hw hb) ⟨by simpa using hc, fun after ha => ?_⟩
      exact absurd ha (not_dollar_suffix hd after)
    · have hb := begins_of_isIdentifier h hc
      rw [wellCut_append rfl, and_iff_right (wellCut_word_cons hw hb), wellCut_dollar rest hl]
      constructor
      · rintro ⟨hf, ha⟩
        refine ⟨by simpa using hc, fun after hs => ?_⟩
        obtain rfl | hs := (dollar_suffix_append hd after).1 hs
        · exact hf
        · exact ha after hs
      · intro hn
        exact ⟨hn.follows rest ((dollar_suffix_append hd rest).2 (.inl rfl)), fun after hs =>
          hn.follows after ((dollar_suffix_append hd after).2 (.inr hs))⟩

/-- A text is a name exactly if it is well cut. -/
theorem exists_parse_iff {text : String} :
    (∃ name, QualifiedName.parse text = .ok name) ↔ WellCut none text.toList := by
  have hp : (∃ name, QualifiedName.parse text = .ok name) ↔ fault? text = none :=
    ⟨fun ⟨name, h⟩ => QualifiedName.text_of_parse h ▸ name.faultless,
      fun h => ⟨⟨text, h⟩, QualifiedName.parse_eq_ok_iff.2 rfl⟩⟩
  rw [hp, fault?_eq_none_iff]
  refine and_iff_right_of_imp fun h => ?_
  rintro rfl
  exact not_wellCut_nil h

/-! ### Segments joined -/

/-- A dotted name is well cut exactly if its segments are. -/
theorem wellCut_intercalate (first : String) (rest : List String) :
    WellCut opener (".".intercalate (first :: rest)).toList ↔
      WellCut opener first.toList ∧ ∀ segment ∈ rest, WellCut (some '.') segment.toList := by
  induction rest generalizing first opener with
  | nil => simp
  | cons second rest ih =>
    rw [String.intercalate_cons_cons]
    simp only [String.toList_append, List.append_assoc]
    rw [show ".".toList = ['.'] from rfl, List.singleton_append, wellCut_append rfl, ih,
      List.forall_mem_cons]

/-- A name with types nested in it is well cut exactly if it is, and what is nested may stand
behind a `$`. -/
theorem wellCut_foldl (text : String) (inner : List String) :
    WellCut opener (inner.foldl (fun text segment => text ++ "$" ++ segment) text).toList ↔
      WellCut opener text.toList ∧ ∀ segment ∈ inner, WellCut (some '$') segment.toList := by
  induction inner generalizing text with
  | nil => simp
  | cons segment inner ih =>
    rw [List.foldl_cons, ih, List.forall_mem_cons, ← and_assoc]
    simp only [String.toList_append, List.append_assoc]
    rw [show "$".toList = ['$'] from rfl, List.singleton_append, wellCut_append rfl]

/-- A segment goes in front of the others with a `.`, or with a `$` if it is a type. -/
theorem binaryFrom_cons_cons (nested : Bool) (first second : String) (rest : List String) :
    binaryFrom nested (first :: second :: rest) =
      first ++ (if nested || Text.startsUppercase first then "$" else ".") ++
        binaryFrom (nested || Text.startsUppercase first) (second :: rest) :=
  rfl

/-- Whether the segments of a dotted name are parted by a `.` or a `$`, the name is well cut exactly
if each `$` in them parts a type from a nested one. -/
theorem wellCut_binaryFrom {nested : Bool} {first : String} {rest : List String}
    (h : ∀ segment ∈ first :: rest, isIdentifier segment.toList = true) :
    WellCut opener (binaryFrom nested (first :: rest)).toList ↔
      ∀ segment ∈ first :: rest, Nests segment.toList := by
  obtain ⟨hf, hr⟩ := List.forall_mem_cons.1 h
  induction rest generalizing first opener nested with
  | nil => simp [binaryFrom, wellCut_identifier hf]
  | cons second rest ih =>
    have hs := List.forall_mem_cons.1 hr
    rw [binaryFrom_cons_cons, List.forall_mem_cons]
    simp only [String.toList_append, List.append_assoc]
    split
    · rw [show "$".toList = ['$'] from rfl, List.singleton_append, wellCut_append rfl,
        wellCut_identifier hf, ih hr hs.1 hs.2]
    · rw [show ".".toList = ['.'] from rfl, List.singleton_append, wellCut_append rfl,
        wellCut_identifier hf, ih hr hs.1 hs.2]

end Name

namespace Declarations

variable {declared : Declarations} {owner : DeclaredType} {first : String} {rest : List String}

/-- What nothing in the file explains falls back to a well-cut name exactly if it is one. -/
theorem wellCut_fallback {header : Header}
    (hp : ∀ package ∈ header.package, ∃ name, QualifiedName.parse package = .ok name)
    (h : Name.isIdentifier first.toList = true) :
    Name.WellCut none (header.fallback first).toList ↔ Name.Nests first.toList := by
  have hdot : ∀ package, (∃ name, QualifiedName.parse package = .ok name) →
      (Name.WellCut none (package ++ "." ++ first).toList ↔ Name.Nests first.toList) := by
    intro package hn
    simp only [String.toList_append, List.append_assoc]
    rw [show ".".toList = ['.'] from rfl, List.singleton_append, Name.wellCut_append rfl,
      Name.wellCut_identifier h, and_iff_right (Name.exists_parse_iff.1 hn)]
  unfold Header.fallback
  split
  · exact hdot "java.lang" ⟨⟨"java.lang", by decide⟩, QualifiedName.parse_eq_ok_iff.2 rfl⟩
  · split
    · next package hs => exact hdot package (hp package hs)
    · exact Name.wellCut_identifier h

/-- The name of a reference whose first segment the file explains is well cut exactly if what is
nested in it may stand behind a `$`, and any other if all of its segments may. -/
theorem wellCut_qualifiedText
    (hp : ∀ package ∈ declared.header.package, ∃ name, QualifiedName.parse package = .ok name)
    (h : ∀ segment ∈ first :: rest, Name.isIdentifier segment.toList = true) :
    Name.WellCut none (declared.qualifiedText owner (first :: rest)).toList ↔
      ((declared.simpleName? owner first).isSome ∨ Name.Nests first.toList) ∧
        ∀ segment ∈ rest, Name.Nests segment.toList := by
  obtain ⟨hf, hr⟩ := List.forall_mem_cons.1 h
  have hrest : (∀ segment ∈ rest, Name.WellCut (some '$') segment.toList) ↔
      ∀ segment ∈ rest, Name.Nests segment.toList :=
    forall₂_congr fun segment hs => Name.wellCut_identifier (hr segment hs)
  unfold qualifiedText
  dsimp only
  cases hn : declared.simpleName? owner first with
  | some name =>
    have hw : Name.WellCut none name.text.toList :=
      Name.exists_parse_iff.1 ⟨name, QualifiedName.parse_eq_ok_iff.2 rfl⟩
    simp [Name.wellCut_foldl, hrest, hw]
  | none =>
    dsimp only
    split
    · simp [Name.wellCut_foldl, hrest, wellCut_fallback hp hf]
    · rw [Name.binary, Name.wellCut_binaryFrom h, List.forall_mem_cons]
      simp

end Declarations

namespace QualifiedName

variable {first text : String} {rest package inner : List String} {name outer : QualifiedName}

/-- Dotted identifiers are a name exactly if each `$` in them parts a type from a nested one. If
they are not, an import of them is reported, and so is a reference to them, except that its first
segment does not count if the file explains it. -/
theorem parse_identifiers
    (h : ∀ segment ∈ first :: rest, Name.isIdentifier segment.toList = true) :
    ((∃ name, parse (".".intercalate (first :: rest)) = .ok name) ↔
      ∀ segment ∈ first :: rest, Name.Nests segment.toList) ∧
    (∀ file header node, (Header.add file header (.importType node (first :: rest))).2 = [] ↔
      ∀ segment ∈ first :: rest, Name.Nests segment.toList) ∧
    ∀ (declared : Declarations) owner,
      (∀ package ∈ declared.header.package, ∃ name, parse package = .ok name) →
      ((∃ name, declared.qualify owner (first :: rest) = .ok name) ↔
        ((declared.simpleName? owner first).isSome ∨ Name.Nests first.toList) ∧
          ∀ segment ∈ rest, Name.Nests segment.toList) := by
  obtain ⟨hf, hr⟩ := List.forall_mem_cons.1 h
  refine ⟨?_, fun file header node => ?_, fun declared owner hp => ?_⟩
  · rw [Name.exists_parse_iff, Name.wellCut_intercalate, Name.wellCut_identifier hf,
      List.forall_mem_cons]
    exact and_congr_right fun _ =>
      forall₂_congr fun segment hs => Name.wellCut_identifier (hr segment hs)
  · rw [← Name.wellCut_binaryFrom h, ← Name.exists_parse_iff, Header.add,
      List.getLast?_eq_some_getLast (List.cons_ne_nil _ _)]
    dsimp only
    rw [Name.binary]
    cases parse (Name.binaryFrom false (first :: rest)) <;> simp
  · exact Name.exists_parse_iff.trans (Declarations.wellCut_qualifiedText hp h)

/-- A number behind a `$` is that of an anonymous class. -/
theorem parse_identifiers_anonymous :
    (∀ segment ∈ ["util", "Map$1"], Name.isIdentifier segment.toList = true) ∧
    (∀ segment ∈ ["util", "Map$1"], Name.Nests segment.toList) ∧
    (Header.add ⟨0⟩ {} (.importType (.create .importDecl ⟨.kwImport, "import", 0, 6, 1, 0, 0⟩)
      ["util", "Map$1"])).2 = [] ∧
    ∃ name, Declarations.qualify ⟨{ package := some "app" }, [], []⟩
      ⟨⟨0⟩, ⟨"app.A", by decide⟩, some "A", .classType,
        ⟨none, none, none, .create .classDecl ⟨.kwClass, "class", 0, 5, 1, 0, 0⟩, []⟩, []⟩
      ["util", "Map$1"] = .ok name := by
  have h : ∀ segment ∈ ["util", "Map$1"], Name.isIdentifier segment.toList = true := by decide
  have hn := (parse_identifiers h).1.1 ⟨⟨"util.Map$1", by decide⟩, parse_eq_ok_iff.2 rfl⟩
  have hp : ∀ package ∈ some "app", ∃ name, parse package = .ok name := by
    rintro _ ⟨⟩
    exact ⟨⟨"app", by decide⟩, parse_eq_ok_iff.2 rfl⟩
  obtain ⟨hf, hr⟩ := List.forall_mem_cons.1 hn
  exact ⟨h, hn, ((parse_identifiers h).2.1 _ _ _).2 hn,
    ((parse_identifiers h).2.2 _ _ hp).2 ⟨.inr hf, hr⟩⟩

/-- A `$` in front of an identifier is taken for one behind an empty segment. -/
theorem parse_leadingDollar :
    (∀ segment ∈ ["a", "$B"], Name.isIdentifier segment.toList = true) ∧
      parse (".".intercalate ["a", "$B"]) = .error (.emptySegment "a.$B") :=
  ⟨by decide, parse_eq_error_iff.2 (by decide)⟩

/-! ### Declared and written names -/

/-- The name of a type within others, the outermost of which is in a package. -/
def ofNesting (package : Option String) (outermost : String) (inner : List String) :
    Except NameError QualifiedName := do
  inner.foldlM nested (← inPackage package outermost)

/-- Nesting one type after the other comes to the name with all of them. -/
theorem foldlM_nested :
    (do inner.foldlM nested (← parse text)) = .ok name ↔
      parse (inner.foldl (fun text segment => text ++ "$" ++ segment) text) = .ok name := by
  induction inner generalizing text with
  | nil => exact iff_of_eq (congrArg (· = _) (bind_pure (parse text)))
  | cons segment inner ih =>
    simp only [List.foldlM_cons]
    cases ht : parse text with
    | ok outer =>
      rw [List.foldl_cons, ← ih, ← text_of_parse ht]
      rfl
    | error fault =>
      refine iff_of_false nofun fun hp => ?_
      have hw := Name.exists_parse_iff.1 ⟨name, hp⟩
      obtain ⟨outer, ho⟩ := Name.exists_parse_iff.2 ((Name.wellCut_foldl _ _).1 hw).1
      exact absurd (ht.symm.trans ho) nofun

/-- What stands in front of a name stays in front when types are nested in it. -/
theorem foldl_dollar_append (front : String) :
    inner.foldl (fun text segment => text ++ "$" ++ segment) (front ++ text) =
      front ++ inner.foldl (fun text segment => text ++ "$" ++ segment) text := by
  induction inner generalizing text with
  | nil => rfl
  | cons segment inner ih =>
    rw [List.foldl_cons, List.foldl_cons, ← ih, String.append_assoc, String.append_assoc,
      String.append_assoc]

/-- Behind a type, all segments are nested types. -/
theorem binaryFrom_true :
    Name.binaryFrom true (first :: inner) =
      inner.foldl (fun text segment => text ++ "$" ++ segment) first := by
  induction inner generalizing first with
  | nil => rfl
  | cons segment inner ih =>
    rw [Name.binaryFrom_cons_cons, Bool.true_or, if_pos rfl, ih, List.foldl_cons,
      foldl_dollar_append]

/-- Segments that begin with the first type are that type with the others nested in it. -/
theorem binaryFrom_type (h : Text.startsUppercase first = true) :
    Name.binaryFrom false (first :: inner) =
      inner.foldl (fun text segment => text ++ "$" ++ segment) first := by
  cases inner with
  | nil => rfl
  | cons segment inner =>
    rw [Name.binaryFrom_cons_cons, h, Bool.or_true, if_pos rfl, binaryFrom_true, List.foldl_cons,
      foldl_dollar_append]

/-- The segments of a package, a type, and what is nested in it are written as they are declared. -/
theorem binary_eq (hn : package ≠ [])
    (hp : ∀ segment ∈ package, Text.startsUppercase segment = false)
    (hf : Text.startsUppercase first = true) :
    Name.binary (package ++ first :: inner) =
      inner.foldl (fun text segment => text ++ "$" ++ segment)
        (".".intercalate package ++ "." ++ first) := by
  rw [foldl_dollar_append, ← binaryFrom_type hf, Name.binary]
  induction package with
  | nil => exact absurd rfl hn
  | cons segment package ih =>
    obtain ⟨hs, hp⟩ := List.forall_mem_cons.1 hp
    cases package with
    | nil => rw [List.singleton_append, Name.binaryFrom_cons_cons, hs]; rfl
    | cons second package =>
      rw [List.cons_append, List.cons_append, Name.binaryFrom_cons_cons, hs, ← List.cons_append,
        Bool.or_false, ih (List.cons_ne_nil _ _) hp, String.intercalate_cons_cons]
      simp only [String.append_assoc]
      rfl

/-- A package with a segment has a text. -/
theorem intercalate_ne_empty (hn : package ≠ []) (hp : ∀ segment ∈ package, segment ≠ "") :
    (".".intercalate package).isEmpty = false := by
  rw [← Bool.not_eq_true, String.isEmpty_iff]
  intro he
  cases package with
  | nil => exact hn rfl
  | cons segment package =>
    have hs := hp segment List.mem_cons_self
    cases package with
    | nil => exact hs (by simpa using he)
    | cons second package =>
      rw [String.intercalate_cons_cons, String.append_eq_empty_iff,
        String.append_eq_empty_iff] at he
      exact hs he.1.1

/-- What is declared in a package and within other types is named by the text that is written. -/
theorem ofNesting_eq_ok_iff (hn : package ≠ [])
    (hp : ∀ segment ∈ package, segment ≠ "" ∧ Text.startsUppercase segment = false)
    (hf : Text.startsUppercase first = true) :
    ofNesting (some (".".intercalate package)) first inner = .ok name ↔
      parse (Name.binary (package ++ first :: inner)) = .ok name := by
  rw [binary_eq hn (fun segment hs => (hp segment hs).2) hf, ← foldlM_nested, ofNesting, inPackage,
    intercalate_ne_empty hn fun segment hs => (hp segment hs).1, if_neg Bool.false_ne_true]

/-- A type that is nested in others, the outermost of which is in a package, is written as it is
declared. The name is malformed for both or for none, an import of it stands for the declared name,
and so does a reference, if its first segment stands for nothing in the file. -/
theorem written_as_declared (hn : package ≠ [])
    (hp : ∀ segment ∈ package, segment ≠ "" ∧ Text.startsUppercase segment = false)
    (hf : Text.startsUppercase first = true) :
    (∀ name, ofNesting (some (".".intercalate package)) first inner = .ok name ↔
      parse (Name.binary (package ++ first :: inner)) = .ok name) ∧
    (∀ file header node, Header.add file header (.importType node (package ++ first :: inner)) =
      match ofNesting (some (".".intercalate package)) first inner with
      | .ok name =>
        let simple := (first :: inner).getLast (List.cons_ne_nil _ _)
        ({ header with imports := header.imports.insert simple name }, [])
      | .error _ =>
        let text := ".".intercalate (package ++ first :: inner)
        (header, [.atNode file node (.malformedName text)])) ∧
    ∀ (declared : Declarations) owner,
      (∀ segment ∈ package.head?, declared.simpleName? owner segment = none) →
      ∀ name, declared.qualify owner (package ++ first :: inner) = .ok name ↔
        ofNesting (some (".".intercalate package)) first inner = .ok name := by
  have ho : ∀ name, ofNesting (some (".".intercalate package)) first inner = .ok name ↔ _ :=
    fun name => ofNesting_eq_ok_iff hn hp hf
  refine ⟨ho, fun file header node => ?_, fun declared owner hu name => ?_⟩
  · rw [Header.add, List.getLast?_append,
      List.getLast?_eq_some_getLast (List.cons_ne_nil first inner), Option.some_or]
    dsimp only
    cases hw : parse (Name.binary (package ++ first :: inner)) with
    | ok name => rw [(ho name).2 hw]
    | error fault =>
      cases hd : ofNesting (some (".".intercalate package)) first inner with
      | ok name => exact absurd (hw.symm.trans ((ho name).1 hd)) nofun
      | error fault => rfl
  · rw [ho]
    cases package with
    | nil => exact absurd rfl hn
    | cons segment package =>
      have hs : Text.startsUppercase segment = false := (hp segment List.mem_cons_self).2
      unfold Declarations.qualify Declarations.qualifiedText
      rw [List.cons_append]
      dsimp only
      rw [hu segment rfl, hs]
      rfl

/-- `java.util.Map.Entry` is the type `Entry` in the type `Map` of the package `java.util`. -/
theorem written_as_declared_entry :
    ["java", "util"] ≠ [] ∧
    (∀ segment ∈ ["java", "util"], segment ≠ "" ∧ Text.startsUppercase segment = false) ∧
    Text.startsUppercase "Map" = true ∧
    ofNesting (some (".".intercalate ["java", "util"])) "Map" ["Entry"] =
      .ok ⟨"java.util.Map$Entry", by decide⟩ ∧
    Declarations.qualify ⟨{ package := some "app" }, [], []⟩
      ⟨⟨0⟩, ⟨"app.A", by decide⟩, some "A", .classType,
        ⟨none, none, none, .create .classDecl ⟨.kwClass, "class", 0, 5, 1, 0, 0⟩, []⟩, []⟩
      ["java", "util", "Map", "Entry"] = .ok ⟨"java.util.Map$Entry", by decide⟩ := by
  have hn : ["java", "util"] ≠ [] := List.cons_ne_nil _ _
  have hp : ∀ segment ∈ ["java", "util"], segment ≠ "" ∧ Text.startsUppercase segment = false := by
    decide
  have hf : Text.startsUppercase "Map" = true := by decide
  obtain ⟨ho, -, hq⟩ := @written_as_declared "Map" ["java", "util"] ["Entry"] hn hp hf
  have hd := (ho ⟨"java.util.Map$Entry", by decide⟩).2 (parse_eq_ok_iff.2 (by decide))
  refine ⟨hn, hp, hf, hd, (hq _ _ ?_ _).2 hd⟩
  rintro _ ⟨⟩
  rfl

end QualifiedName

end JavaGraph
