import Mathlib.Computability.Language
import Mathlib.Data.List.Chain
import JavaGraph.Proofs.Token.Tiling
/-!
# Where comments and literals end

The kinds of tokens are patterns: regular languages of words. The pattern of a block comment counts
stars, and its words are those that end with the first `*/` behind the opening `/*`. The pattern of
a string literal takes a backslash together with the character behind it, and its words are those
that end with the first quote that is not escaped. At such an opening the lexer takes the longest
word that any pattern has there, or else what is not closed.
-/

namespace JavaGraph.Lexer

open scoped Computability

/-! ### Patterns -/

/-- The words of one character that satisfies `p`. -/
def oneOf (p : Char → Bool) : Language Char := {word | ∃ c, p c = true ∧ word = [c]}

/-- One word. -/
def spelled (spelling : String) : Language Char := {spelling.toList}

/-- One word or none. -/
def optional (words : Language Char) : Language Char := 1 + words

/-- Words one behind the other, at least one. -/
def oneOrMore (words : Language Char) : Language Char := words * words∗

/-- A round inside a block comment: up to some stars and over them. -/
def commentRound : Language Char := (oneOf (· != '*'))∗ * oneOrMore (oneOf (· == '*'))

/-- What stands between the opening and the last slash of a block comment. -/
def commentRounds : Language Char :=
  commentRound * (oneOf (fun c => c != '*' && c != '/') * commentRound)∗

/-- One item between the quotes of a literal. -/
def literalItem (quote : Char) : Language Char :=
  oneOf (fun c => c != quote && c != '\\' && c != '\n') +
    oneOf (· == '\\') * oneOf (· != '\n')

/-- Digits and underscores behind a digit. -/
def decimalDigits : Language Char := oneOf Char.isDigit * (oneOf isDigitPart)∗

/-- An exponent. -/
def exponent : Language Char :=
  oneOf ['e', 'E'].contains * optional (oneOf ['+', '-'].contains) * oneOrMore (oneOf Char.isDigit)

/-- A number of another base than ten. -/
def radixNumber (letters : List Char) (isDigit : Char → Bool) : Language Char :=
  spelled "0" * oneOf letters.contains * oneOf isDigit *
    (oneOf fun d => isDigit d || d == '_')∗ * optional (oneOf intSuffixes.contains)

/-- The words of each kind of tokens. -/
def pattern : TokenKind → Language Char
  | .whitespace => oneOrMore (oneOf isLayout)
  | .lineComment => spelled "//" * (oneOf (· != '\n'))∗
  | .blockComment => spelled "/*" * commentRounds * spelled "/"
  | .ident => oneOf isIdentStart * (oneOf isIdentPart)∗
  | .intLiteral =>
    decimalDigits * optional (oneOf intSuffixes.contains) +
      radixNumber ['x', 'X'] isHexDigit + radixNumber ['b', 'B'] isBinaryDigit
  | .floatLiteral =>
    decimalDigits * spelled "." * (oneOf isDigitPart)∗ * optional exponent *
        optional (oneOf floatSuffixes.contains) +
      spelled "." * decimalDigits * optional exponent * optional (oneOf floatSuffixes.contains) +
      decimalDigits * exponent * optional (oneOf floatSuffixes.contains) +
      decimalDigits * oneOf floatSuffixes.contains
  | .stringLiteral => spelled "\"" * (literalItem '"')∗ * spelled "\""
  | .charLiteral => spelled "'" * oneOrMore (literalItem '\'') * spelled "'"
  | kind => {word | ∃ spelling, (spelling, kind) ∈ TokenKind.keywords ++ TokenKind.symbols ∧
      word = spelling.toList}

variable {p : Char → Bool} {word : List Char} {words others : Language Char}

theorem mem_oneOf : word ∈ oneOf p ↔ ∃ c, p c = true ∧ word = [c] := Iff.rfl

/-- The words over some characters are those that have no others. -/
theorem mem_kstar_oneOf : word ∈ (oneOf p)∗ ↔ ∀ c ∈ word, p c = true := by
  rw [Language.mem_kstar]
  constructor
  · rintro ⟨parts, rfl, hparts⟩ c hc
    obtain ⟨part, hpart, hc⟩ := List.mem_flatten.1 hc
    obtain ⟨d, hd, rfl⟩ := hparts part hpart
    rwa [List.mem_singleton.1 hc]
  · intro h
    refine ⟨word.map fun c => [c], by simp [← List.flatMap_def], fun part hpart => ?_⟩
    obtain ⟨c, hc, rfl⟩ := List.mem_map.1 hpart
    exact ⟨c, h c hc, rfl⟩

/-- One word and more words. -/
theorem append_mem_kstar {part : List Char} (hp : part ∈ words) (hw : word ∈ words∗) :
    part ++ word ∈ words∗ := by
  obtain ⟨parts, rfl, hparts⟩ := Language.mem_kstar.1 hw
  exact Language.mem_kstar.2 ⟨part :: parts, rfl, List.forall_mem_cons.2 ⟨hp, hparts⟩⟩

/-- A property of sequences of words holds if it is kept by a word in front. -/
theorem kstar_induction {motive : List Char → Prop} (hw : word ∈ words∗) (nil : motive [])
    (cons : ∀ part rest, part ∈ words → rest ∈ words∗ → motive rest → motive (part ++ rest)) :
    motive word := by
  obtain ⟨parts, rfl, hparts⟩ := Language.mem_kstar.1 hw
  clear hw
  induction parts with
  | nil => exact nil
  | cons part parts ih =>
    obtain ⟨hpart, hrest⟩ := List.forall_mem_cons.1 hparts
    exact cons part parts.flatten hpart (Language.mem_kstar.2 ⟨parts, rfl, hrest⟩) (ih hrest)

/-- Characters of a class, at least one. -/
theorem mem_oneOrMore_oneOf : word ∈ oneOrMore (oneOf p) ↔ word ≠ [] ∧ ∀ c ∈ word, p c = true := by
  rw [oneOrMore, Language.mem_mul]
  constructor
  · rintro ⟨_, ⟨c, hc, rfl⟩, rest, hrest, rfl⟩
    exact ⟨by simp, List.forall_mem_cons.2 ⟨hc, mem_kstar_oneOf.1 hrest⟩⟩
  · rintro ⟨hne, hword⟩
    obtain ⟨c, rest, rfl⟩ := List.exists_cons_of_ne_nil hne
    obtain ⟨hc, hrest⟩ := List.forall_mem_cons.1 hword
    exact ⟨[c], ⟨c, hc, rfl⟩, rest, mem_kstar_oneOf.2 hrest, rfl⟩

/-! ### The end of a block comment -/

/-- Two characters that do not close a block comment. -/
private def StaysOpen (c d : Char) : Prop := ¬ (c = '*' ∧ d = '/')

private theorem isChain_staysOpen_iff :
    word.IsChain StaysOpen ↔ ¬ ['*', '/'] <:+: word := by
  induction word with
  | nil => simp
  | cons c word ih =>
    rw [List.infix_cons_iff, not_or, ← ih, List.isChain_cons]
    refine and_congr_left fun _ => ?_
    cases word <;> simp [StaysOpen, eq_comm]

/-- A round is some characters and then stars. -/
private theorem mem_commentRound :
    word ∈ commentRound ↔ ∃ front stars, word = front ++ stars ∧ '*' ∉ front ∧ stars ≠ [] ∧
      ∀ c ∈ stars, c = '*' := by
  rw [commentRound, Language.mem_mul]
  constructor
  · rintro ⟨front, hfront, stars, hstars, rfl⟩
    rw [mem_kstar_oneOf] at hfront
    rw [mem_oneOrMore_oneOf] at hstars
    exact ⟨front, stars, rfl, fun hm => by simpa using hfront _ hm, hstars.1,
      fun c hc => by simpa using hstars.2 c hc⟩
  · rintro ⟨front, stars, rfl, hfront, hne, hstars⟩
    refine ⟨front, mem_kstar_oneOf.2 fun c hc => ?_, stars,
      mem_oneOrMore_oneOf.2 ⟨hne, fun c hc => by simpa using hstars c hc⟩, rfl⟩
    simpa using fun he : c = '*' => hfront (he ▸ hc)

/-- A word that ends with a star and closes no comment before. -/
private structure Closing (word : List Char) : Prop where
  last : word.getLast? = some '*'
  chain : word.IsChain StaysOpen

private theorem Closing.of_mem_commentRound (h : word ∈ commentRound) : Closing word := by
  obtain ⟨front, stars, rfl, hfront, hne, hstars⟩ := mem_commentRound.1 h
  have hlast := List.getLast?_eq_some_getLast hne
  constructor
  · rw [List.getLast?_append, hlast, hstars _ (List.getLast_mem hne)]
    rfl
  · refine List.isChain_append.2 ⟨?_, ?_, ?_⟩
    · refine (List.pairwise_of_forall_mem_list fun c hc d _ hclose => ?_).isChain
      exact hfront (hclose.1 ▸ hc)
    · refine (List.pairwise_of_forall_mem_list fun c _ d hd hclose => ?_).isChain
      cases (hstars d hd).symm.trans hclose.2
    · intro c hc d _ hclose
      exact hfront (hclose.1 ▸ List.mem_of_mem_getLast? hc)

/-- Behind a star that does not close the comment there may be another round. -/
private theorem Closing.append {c : Char} {more : List Char} (h : Closing word)
    (hc : c ≠ '*' ∧ c ≠ '/') (hm : Closing more) : Closing (word ++ c :: more) := by
  constructor
  · rw [List.getLast?_append, List.getLast?_cons, hm.last]
    rfl
  · refine List.isChain_append.2 ⟨h.chain, List.isChain_cons.2 ⟨?_, hm.chain⟩, ?_⟩
    · exact fun d _ hclose => hc.1 hclose.1
    · intro d _ e he hclose
      cases he
      exact hc.2 hclose.2

/-- The rounds of a block comment close it at their end and not before. -/
private theorem Closing.of_mem_commentRounds (h : word ∈ commentRounds) : Closing word := by
  obtain ⟨first, hfirst, others, hothers, rfl⟩ := Language.mem_mul.1 h
  replace hfirst := Closing.of_mem_commentRound hfirst
  obtain ⟨rounds, rfl, hrounds⟩ := Language.mem_kstar.1 hothers
  clear h hothers
  induction rounds generalizing first with
  | nil => simpa using hfirst
  | cons round rounds ih =>
    obtain ⟨hround, hrest⟩ := List.forall_mem_cons.1 hrounds
    obtain ⟨_, ⟨c, hc, rfl⟩, more, hmore, rfl⟩ := Language.mem_mul.1 hround
    have hnext := hfirst.append (by simpa using hc) (Closing.of_mem_commentRound hmore)
    have h := ih _ hnext hrest
    simpa using h

/-- A word with a star is characters before it, stars, and what is no star then. -/
private theorem exists_firstStars (h : '*' ∈ word) :
    ∃ front stars behind, word = front ++ stars ++ behind ∧ front ++ stars ∈ commentRound ∧
      stars.getLast? = some '*' ∧ behind.head? ≠ some '*' := by
  let rest := word.dropWhile (· != '*')
  have hword : word = word.takeWhile (· != '*') ++ rest := List.takeWhile_append_dropWhile.symm
  have hrest : rest = rest.takeWhile (· == '*') ++ rest.dropWhile (· == '*') :=
    List.takeWhile_append_dropWhile.symm
  have hfront : '*' ∉ word.takeWhile (· != '*') := fun hm => by
    simpa using List.mem_takeWhile_imp hm
  have hstars : ∀ c ∈ rest.takeWhile (· == '*'), c = '*' := fun c hc => by
    simpa using List.mem_takeWhile_imp hc
  have hne : rest.takeWhile (· == '*') ≠ [] := by
    have hmem : '*' ∈ rest := by
      rw [hword, List.mem_append] at h
      exact h.resolve_left hfront
    obtain ⟨c, tail, hcons⟩ := List.exists_cons_of_ne_nil (List.ne_nil_of_mem hmem)
    have hhead := List.head?_dropWhile_not (· != '*') word
    rw [show word.dropWhile (· != '*') = c :: tail from hcons] at hhead
    have hc : c = '*' := by simpa using hhead
    rw [hcons, hc]
    simp
  refine ⟨_, _, rest.dropWhile (· == '*'), by rw [List.append_assoc, ← hrest, ← hword],
    mem_commentRound.2 ⟨_, _, rfl, hfront, hne, hstars⟩, ?_, ?_⟩
  · rw [List.getLast?_eq_some_getLast hne, hstars _ (List.getLast_mem hne)]
  · intro hhead
    have hnot := List.head?_dropWhile_not (· == '*') rest
    rw [hhead] at hnot
    exact absurd hnot (by decide)

/-- What closes a block comment at its end and not before is made of rounds. -/
private theorem Closing.mem_commentRounds (h : Closing word) : word ∈ commentRounds := by
  generalize hn : word.length = count
  induction count using Nat.strong_induction_on generalizing word with
  | _ count ih =>
  obtain ⟨front, stars, behind, rfl, hround, hstars, hbehind⟩ :=
    exists_firstStars (List.mem_of_getLast? h.last)
  refine Language.append_mem_mul hround ?_
  cases behind with
  | nil => exact Language.nil_mem_kstar _
  | cons c more =>
    have hstar : c ≠ '*' := fun he => hbehind (by rw [he]; rfl)
    have hslash : c ≠ '/' := by
      have hchain := (List.isChain_append.1 h.chain).2.2 '*' (by simp [hstars]) c rfl
      exact fun he => hchain ⟨rfl, he⟩
    have hlast : more.getLast? = some '*' := by
      have hlast := h.last
      rw [List.getLast?_append, List.getLast?_cons, Option.some_or, Option.some.injEq] at hlast
      cases hmore : more.getLast? with
      | none =>
        rw [hmore] at hlast
        exact absurd hlast hstar
      | some d => rw [hmore] at hlast; simpa using hlast
    have hclosing : Closing more :=
      ⟨hlast, (List.isChain_cons.1 h.chain.right_of_append).2⟩
    -- what is behind the star has rounds of its own
    obtain ⟨first, hfirst, others, hothers, hmore⟩ := Language.mem_mul.1
      (ih more.length (by rw [← hn]; simp; omega) hclosing rfl)
    have hpart : c :: first ∈ oneOf (fun c => c != '*' && c != '/') * commentRound :=
      Language.append_mem_mul (a := [c]) ⟨c, by simp [hstar, hslash], rfl⟩ hfirst
    rw [← hmore]
    exact append_mem_kstar hpart hothers

/-- The words of the pattern of block comments are those that end with the first closing behind the
opening. -/
theorem mem_blockComment :
    word ∈ pattern .blockComment ↔
      ∃ body, word = '/' :: '*' :: (body ++ ['*', '/']) ∧ ¬ ['*', '/'] <:+: body := by
  constructor
  · intro h
    obtain ⟨_, ⟨_, rfl, rounds, hrounds, rfl⟩, _, rfl, rfl⟩ := h
    have hclosing := Closing.of_mem_commentRounds hrounds
    obtain ⟨body, rfl⟩ := List.getLast?_eq_some_iff.1 hclosing.last
    exact ⟨body, by simp, isChain_staysOpen_iff.1 hclosing.chain.left_of_append⟩
  · rintro ⟨body, rfl, hbody⟩
    have hclosing : Closing (body ++ ['*']) := by
      refine ⟨by simp, List.isChain_append.2 ⟨isChain_staysOpen_iff.2 hbody, by simp, ?_⟩⟩
      intro c _ d hd hclose
      cases hd
      cases hclose.2
    have hword : '/' :: '*' :: (body ++ ['*', '/']) =
        "/*".toList ++ (body ++ ['*']) ++ "/".toList := by simp
    rw [hword]
    exact Language.append_mem_mul (Language.append_mem_mul rfl hclosing.mem_commentRounds) rfl

/-! ### The end of a literal -/

/-- What stands directly behind some characters is escaped: they end with an odd number of
backslashes. -/
def Escaped (before : List Char) : Prop :=
  (before.rtakeWhile (· == '\\')).length % 2 = 1

/-- What may stand between the quotes of a literal: no line feed, and no quote but escaped ones; and
the quote behind it is not escaped. -/
structure LiteralBody (quote : Char) (body : List Char) : Prop where
  oneLine : '\n' ∉ body
  escaped : ∀ before after, body = before ++ quote :: after → Escaped before
  closes : ¬ Escaped body

variable {quote : Char} {item : List Char}

theorem mem_literalItem : item ∈ literalItem quote ↔
    (∃ c, c ≠ quote ∧ c ≠ '\\' ∧ c ≠ '\n' ∧ item = [c]) ∨ ∃ c, c ≠ '\n' ∧ item = ['\\', c] := by
  rw [literalItem, Language.mem_add, mem_oneOf, Language.mem_mul]
  refine or_congr ?_ ?_
  · simp [and_assoc]
  · constructor
    · rintro ⟨_, ⟨c, hc, rfl⟩, _, ⟨d, hd, rfl⟩, rfl⟩
      exact ⟨d, by simpa using hd, by simpa using hc⟩
    · rintro ⟨d, hd, rfl⟩
      exact ⟨['\\'], ⟨_, rfl, rfl⟩, [d], ⟨d, by simpa using hd, rfl⟩, rfl⟩

private theorem not_escaped_nil : ¬ Escaped [] := by
  simp [Escaped]

/-- A backslash escapes what is behind it if it is not escaped itself. -/
private theorem escaped_concat (before : List Char) (c : Char) :
    Escaped (before ++ [c]) ↔ c = '\\' ∧ ¬ Escaped before := by
  unfold Escaped
  by_cases hc : c = '\\'
  · rw [List.rtakeWhile_concat_pos (· == '\\') _ _ (by simpa using hc), List.length_append,
      List.length_singleton]
    simp only [hc, true_and]
    omega
  · rw [List.rtakeWhile_concat_neg (· == '\\') _ _ (by simpa using hc)]
    simp [hc]

/-- What escapes nothing behind it can be put in front. -/
private theorem escaped_append (h : ¬ Escaped item) (body : List Char) :
    Escaped (item ++ body) ↔ Escaped body := by
  induction body using List.reverseRecOn with
  | nil => simp [h, not_escaped_nil]
  | append_singleton body c ih => rw [← List.append_assoc, escaped_concat, escaped_concat, ih]

/-- An item escapes nothing behind it. -/
private theorem not_escaped_of_mem (h : item ∈ literalItem quote) : ¬ Escaped item := by
  obtain ⟨c, -, hc, -, rfl⟩ | ⟨c, -, rfl⟩ := mem_literalItem.1 h
  · exact fun he => hc ((escaped_concat [] c).1 he).1
  · exact fun he => ((escaped_concat ['\\'] c).1 he).2 ((escaped_concat [] _).2
      ⟨rfl, not_escaped_nil⟩)

/-- A quote in an item is escaped. -/
private theorem escaped_of_mem (hq : quote ≠ '\\') {before after : List Char}
    (h : before ++ quote :: after ∈ literalItem quote) : Escaped before := by
  obtain ⟨c, hc, -, -, he⟩ | ⟨c, -, he⟩ := mem_literalItem.1 h
  · cases before with
    | nil => exact absurd (List.cons.inj he).1.symm hc
    | cons d before => simp at he
  · cases before with
    | nil => exact absurd (List.cons.inj he).1 hq
    | cons d before =>
      obtain ⟨rfl, he⟩ := List.cons.inj he
      cases before with
      | nil => exact (escaped_concat [] _).2 ⟨rfl, not_escaped_nil⟩
      | cons e before => simp at he

/-- An item in front makes no difference between the quotes. -/
private theorem literalBody_append (hq : quote ≠ '\\') (h : item ∈ literalItem quote)
    (body : List Char) : LiteralBody quote (item ++ body) ↔ LiteralBody quote body := by
  have hescaped := escaped_append (not_escaped_of_mem h)
  constructor
  · intro hb
    refine ⟨fun hm => hb.oneLine (List.mem_append_right _ hm), ?_, fun he =>
      hb.closes ((hescaped body).2 he)⟩
    rintro before after rfl
    exact (hescaped before).1 (hb.escaped (item ++ before) after (by simp))
  · intro hb
    refine ⟨fun hm => ?_, ?_, fun he => hb.closes ((hescaped body).1 he)⟩
    · rcases List.mem_append.1 hm with hm | hm
      · obtain ⟨c, -, -, hc, rfl⟩ | ⟨c, hc, rfl⟩ := mem_literalItem.1 h
        · exact hc (List.mem_singleton.1 hm).symm
        · simp only [List.mem_cons, List.not_mem_nil, or_false] at hm
          exact hm.elim (by decide) fun hm => hc hm.symm
      · exact hb.oneLine hm
    · intro before after he
      rcases List.append_eq_append_iff.1 he with ⟨more, rfl, hm⟩ | ⟨more, rfl, hm⟩
      · exact (hescaped more).2 (hb.escaped more after hm)
      · cases more with
        | nil => exact absurd (hb.escaped [] after hm.symm) not_escaped_nil
        | cons c more =>
          obtain ⟨rfl, -⟩ := List.cons.inj hm
          exact escaped_of_mem hq h

/-- The words between quotes are made of items. -/
theorem mem_kstar_literalItem (hq : quote ≠ '\\') {body : List Char} :
    body ∈ (literalItem quote)∗ ↔ LiteralBody quote body := by
  constructor
  · intro h
    refine kstar_induction h ⟨by simp, by simp, not_escaped_nil⟩ ?_
    exact fun item rest hitem _ hrest => (literalBody_append hq hitem rest).2 hrest
  · intro h
    generalize hn : body.length = count
    induction count using Nat.strong_induction_on generalizing body with
    | _ count ih =>
    -- it is enough to find an item in front
    have hfront : ∀ item rest, item ∈ literalItem quote → item ≠ [] → body = item ++ rest →
        body ∈ (literalItem quote)∗ := by
      rintro item rest hitem hne rfl
      have hpos := List.length_pos_of_ne_nil hne
      refine append_mem_kstar hitem (ih rest.length ?_ ((literalBody_append hq hitem rest).1 h) rfl)
      rw [← hn, List.length_append]
      omega
    cases body with
    | nil => exact Language.nil_mem_kstar _
    | cons c rest =>
      have hline : c ≠ '\n' := fun he => h.oneLine (by simp [he])
      have hquote : c ≠ quote := fun he =>
        not_escaped_nil (h.escaped [] rest (by rw [he, List.nil_append]))
      by_cases hc : c = '\\'
      · subst hc
        cases rest with
        | nil => exact absurd ((escaped_concat [] _).2 ⟨rfl, not_escaped_nil⟩) h.closes
        | cons d rest =>
          have hd : d ≠ '\n' := fun he => h.oneLine (by simp [he])
          exact hfront ['\\', d] rest (mem_literalItem.2 (.inr ⟨d, hd, rfl⟩)) (by simp) rfl
      · exact hfront [c] rest (mem_literalItem.2 (.inl ⟨c, hquote, hc, hline, rfl⟩)) (by simp) rfl

/-- The words of the pattern of string literals are those that end with the first quote behind the
opening one that is not escaped, on one line. -/
theorem mem_stringLiteral :
    word ∈ pattern .stringLiteral ↔
      ∃ body, word = '"' :: (body ++ ['"']) ∧ LiteralBody '"' body := by
  constructor
  · rintro ⟨_, ⟨_, rfl, body, hbody, rfl⟩, _, rfl, rfl⟩
    exact ⟨body, by simp, (mem_kstar_literalItem (by decide)).1 hbody⟩
  · rintro ⟨body, rfl, hbody⟩
    have hword : '"' :: (body ++ ['"']) = "\"".toList ++ body ++ "\"".toList := by simp
    rw [hword]
    exact Language.append_mem_mul (Language.append_mem_mul rfl
      ((mem_kstar_literalItem (by decide)).2 hbody)) rfl

/-- The words of the pattern of line comments go on to the end of a line. -/
theorem mem_lineComment :
    word ∈ pattern .lineComment ↔ ∃ line, word = '/' :: '/' :: line ∧ '\n' ∉ line := by
  constructor
  · rintro ⟨_, rfl, line, hline, rfl⟩
    exact ⟨line, rfl, fun hm => by simpa using mem_kstar_oneOf.1 hline _ hm⟩
  · rintro ⟨line, rfl, hline⟩
    refine Language.append_mem_mul (a := "//".toList) rfl (mem_kstar_oneOf.2 fun c hc => ?_)
    simpa using fun he : c = '\n' => hline (he ▸ hc)

/-! ### What the lexer takes -/

/-- A block comment is searched for its first closing. -/
theorem beforeCommentEnd?_of_body {body : List Char} (h : ¬ ['*', '/'] <:+: body)
    (after : List Char) :
    beforeCommentEnd? (body ++ '*' :: '/' :: after) = some body.length := by
  induction body with
  | nil => rfl
  | cons c body ih =>
    rw [List.infix_cons_iff, not_or] at h
    rw [List.cons_append, beforeCommentEnd?, ih h.2, if_neg]
    · rfl
    · rintro ⟨rfl, hhead⟩
      cases body with
      | nil => cases hhead
      | cons d body =>
        cases hhead
        exact h.1 ⟨body, rfl⟩

/-- Nothing is found where no closing is. -/
theorem beforeCommentEnd?_of_open {inside : List Char} (h : ¬ ['*', '/'] <:+: inside) :
    beforeCommentEnd? inside = none := by
  induction inside with
  | nil => rfl
  | cons c inside ih =>
    rw [List.infix_cons_iff, not_or] at h
    rw [beforeCommentEnd?, ih h.2, if_neg]
    · rfl
    · rintro ⟨rfl, hhead⟩
      cases inside with
      | nil => cases hhead
      | cons d inside =>
        cases hhead
        exact h.1 ⟨inside, rfl⟩

/-- Items are taken one by one. -/
theorem literalItems_append (hq : quote ≠ '\\') {body : List Char}
    (h : body ∈ (literalItem quote)∗) (rest : List Char) :
    literalItems quote (body ++ rest) = body.length + literalItems quote rest := by
  refine kstar_induction (motive := fun body =>
    literalItems quote (body ++ rest) = body.length + literalItems quote rest) h (by simp)
    fun item more hitem _ ih => ?_
  rw [List.append_assoc, List.length_append, Nat.add_assoc, ← ih]
  obtain ⟨c, hquote, hc, hline, rfl⟩ | ⟨c, hline, rfl⟩ := mem_literalItem.1 hitem
  · cases hrest : more ++ rest with
    | nil => simp [literalItems, hquote, hc, hline]
    | cons d rest => simp [literalItems, hquote, hc, hline]
  · simp [literalItems, Ne.symm hq, hline]

/-- A quote ends the items. -/
theorem literalItems_quote (quote : Char) (rest : List Char) :
    literalItems quote (quote :: rest) = 0 := by
  cases rest <;> simp [literalItems]

/-- What is taken is made of items. -/
theorem take_literalItems (quote : Char) (cs : List Char) :
    cs.take (literalItems quote cs) ∈ (literalItem quote)∗ := by
  have hnil : [] ∈ (literalItem quote)∗ := Language.nil_mem_kstar _
  fun_induction literalItems quote cs with
  | case1 | case2 | case4 | case5 => exact hnil
  | case3 c hc =>
    simp only [not_or] at hc
    exact append_mem_kstar (mem_literalItem.2 (.inl ⟨c, hc.1, hc.2.1, hc.2.2, rfl⟩)) hnil
  | case6 d cs hd hc ih =>
    rw [Nat.add_comm, List.take_succ_cons, List.take_succ_cons]
    exact append_mem_kstar (mem_literalItem.2 (.inr ⟨d, hd, rfl⟩)) ih
  | case7 c d cs hc hbackslash ih =>
    simp only [not_or] at hc
    rw [Nat.add_comm, List.take_succ_cons]
    exact append_mem_kstar (mem_literalItem.2 (.inl ⟨c, hc.1, hbackslash, hc.2, rfl⟩)) ih

/-- A string literal that is closed is taken to its closing quote. -/
theorem stringLexeme_of_body {body : List Char} (h : LiteralBody '"' body) (after : List Char) :
    stringLexeme (body ++ '"' :: after) = ⟨.stringLiteral, body.length + 2⟩ := by
  have hitems : literalItems '"' (body ++ '"' :: after) = body.length := by
    rw [literalItems_append (by decide) ((mem_kstar_literalItem (by decide)).2 h),
      literalItems_quote, Nat.add_zero]
  rw [stringLexeme, hitems, List.drop_left, if_pos List.head?_cons]
  congr 1
  omega

/-- A string literal that is not closed is none. -/
theorem stringLexeme_of_open {inside : List Char}
    (h : ∀ body after, inside = body ++ '"' :: after → ¬ LiteralBody '"' body) :
    (stringLexeme inside).kind = .unknown := by
  unfold stringLexeme
  extract_lets items
  rw [if_neg]
  intro hquote
  obtain ⟨after, hafter⟩ := List.head?_eq_some_iff.1 hquote
  refine h (inside.take items) after ?_ ((mem_kstar_literalItem (by decide)).1
    (take_literalItems '"' inside))
  rw [← hafter, List.take_append_drop]

/-- A block comment that is closed is taken to its closing. -/
theorem blockCommentLexeme_of_body {body : List Char} (h : ¬ ['*', '/'] <:+: body)
    (after : List Char) :
    blockCommentLexeme (body ++ '*' :: '/' :: after) = ⟨.blockComment, body.length + 4⟩ := by
  simp only [blockCommentLexeme, beforeCommentEnd?_of_body h, Lexeme.mk.injEq, true_and]
  omega

/-- A block comment that is not closed goes on to the end. -/
theorem blockCommentLexeme_of_open {inside : List Char} (h : ¬ ['*', '/'] <:+: inside) :
    blockCommentLexeme inside = ⟨.unknown, inside.length + 2⟩ := by
  simp only [blockCommentLexeme, beforeCommentEnd?_of_open h, Lexeme.mk.injEq, true_and]
  omega

theorem nextLexeme_lineComment (rest : List Char) :
    nextLexeme '/' ('/' :: rest) = ⟨.lineComment, 2 + run (· != '\n') rest⟩ := rfl

theorem nextLexeme_blockComment (rest : List Char) :
    nextLexeme '/' ('*' :: rest) = blockCommentLexeme rest := rfl

theorem nextLexeme_string (rest : List Char) : nextLexeme '"' rest = stringLexeme rest := rfl

private theorem tokensFrom_nil (fuel : Nat) (place : Text.Position) (index : Nat) :
    tokensFrom fuel place index [] = [tokenAt .eof place [] index] := by
  cases fuel <;> rfl

/-- Each token is the lexeme at the front of what the tokens before it leave. -/
theorem lexeme_of_split {fuel : Nat} {place : Text.Position} {index : Nat} {cs rest : List Char}
    {before after : List Token} {token : Token} (hfuel : cs.length ≤ fuel)
    (h : tokensFrom fuel place index cs = before ++ token :: after)
    (hr : cs = before.flatMap (·.text.toList) ++ rest) :
    (rest = [] ∧ token.kind = .eof) ∨ ∃ c tail, rest = c :: tail ∧
      token.kind = (nextLexeme c tail).kind ∧
      token.text.toList = rest.take (nextLexeme c tail).count := by
  induction fuel generalizing place index cs before with
  | zero =>
    obtain rfl : cs = [] := List.eq_nil_of_length_eq_zero (Nat.le_zero.1 hfuel)
    rw [tokensFrom_nil] at h
    obtain ⟨rfl, hlast⟩ := List.append_eq_singleton_iff.1 h.symm |>.resolve_right (by simp)
    cases hlast
    exact .inl ⟨hr.symm, rfl⟩
  | succ fuel ih =>
    cases cs with
    | nil =>
      rw [tokensFrom_nil] at h
      obtain ⟨rfl, hlast⟩ := List.append_eq_singleton_iff.1 h.symm |>.resolve_right (by simp)
      cases hlast
      exact .inl ⟨hr.symm, rfl⟩
    | cons c tail =>
      have hpositive := (proper_nextLexeme c tail).1
      rw [tokensFrom] at h
      generalize hlexeme : nextLexeme c tail = lexeme at h hpositive
      have hcovered : ∀ place, (tokenAt lexeme.kind place ((c :: tail).take lexeme.count)
          index).text.toList = (c :: tail).take lexeme.count := fun _ => String.toList_ofList
      cases before with
      | nil =>
        obtain ⟨rfl, -⟩ := List.cons.inj h
        obtain rfl : c :: tail = rest := by simpa using hr
        exact .inr ⟨c, tail, rfl, by rw [hlexeme]; rfl, by rw [hlexeme, hcovered]⟩
      | cons first before =>
        obtain ⟨rfl, hbehind⟩ := List.cons.inj h
        refine ih ?_ hbehind ?_
        · rw [List.length_drop]
          simp only [List.length_cons] at hfuel ⊢
          omega
        · rw [List.flatMap_cons, hcovered, List.append_assoc] at hr
          exact List.append_cancel_left ((List.take_append_drop ..).trans hr)

/-! ### Longest words -/

/-- Whether the words of a language begin with characters of a class. -/
def Begins (p : Char → Prop) (words : Language Char) : Prop :=
  ∀ word ∈ words, ∃ c, word.head? = some c ∧ p c

theorem Begins.mul {p : Char → Prop} (h : Begins p words) (others : Language Char) :
    Begins p (words * others) := by
  rintro _ ⟨word, hw, other, -, rfl⟩
  obtain ⟨c, hc, hp⟩ := h word hw
  exact ⟨c, by simp [hc], hp⟩

theorem Begins.add {p : Char → Prop} (h : Begins p words) (h' : Begins p others) :
    Begins p (words + others) := by
  rintro word (hw | hw)
  · exact h word hw
  · exact h' word hw

theorem begins_oneOf {p : Char → Bool} {q : Char → Prop} (h : ∀ c, p c = true → q c) :
    Begins q (oneOf p) := by
  rintro _ ⟨c, hc, rfl⟩
  exact ⟨c, rfl, h c hc⟩

/-- Characters that begin no comment and no string literal. -/
private def Elsewhere (c : Char) : Prop := c ≠ '/' ∧ c ≠ '"'

private theorem begins_elsewhere {p : Char → Bool} (h : p '/' = false ∧ p '"' = false) :
    Begins Elsewhere (oneOf p) := by
  refine begins_oneOf fun c hc => ⟨?_, ?_⟩ <;> rintro rfl <;> simp_all

/-- Layout, names, numbers and characters begin elsewhere. -/
private theorem begins_pattern {kind : TokenKind}
    (h : kind ∈ [.whitespace, .ident, .intLiteral, .floatLiteral, .charLiteral]) :
    Begins Elsewhere (pattern kind) := by
  have hdigits : Begins Elsewhere decimalDigits := (begins_elsewhere (by decide)).mul _
  have hspelled : ∀ {spelling : String} {c : Char}, spelling.toList.head? = some c →
      Elsewhere c → Begins Elsewhere (spelled spelling) := by
    rintro spelling c hc he _ rfl
    exact ⟨c, hc, he⟩
  have hzero : Begins Elsewhere (spelled "0") := hspelled (c := '0') rfl (by simp [Elsewhere])
  have hpoint : Begins Elsewhere (spelled ".") := hspelled (c := '.') rfl (by simp [Elsewhere])
  have hquote : Begins Elsewhere (spelled "'") := hspelled (c := '\'') rfl (by simp [Elsewhere])
  simp only [List.mem_cons, List.not_mem_nil, or_false] at h
  obtain rfl | rfl | rfl | rfl | rfl := h
  · exact (begins_elsewhere (by decide)).mul _
  · exact (begins_elsewhere (by decide)).mul _
  · exact ((hdigits.mul _).add ((((hzero.mul _).mul _).mul _).mul _)).add
      ((((hzero.mul _).mul _).mul _).mul _)
  · exact ((((((hdigits.mul _).mul _).mul _).mul _).add (((hpoint.mul _).mul _).mul _)).add
      ((hdigits.mul _).mul _)).add (hdigits.mul _)
  · exact (hquote.mul _).mul _

/-- The other kinds have a few fixed words. -/
private theorem exists_spelling {kind : TokenKind} (h : word ∈ pattern kind)
    (hk : kind ∉ [.whitespace, .ident, .intLiteral, .floatLiteral, .charLiteral, .lineComment,
      .blockComment, .stringLiteral]) :
    ∃ entry ∈ TokenKind.keywords ++ TokenKind.symbols, word = entry.1.toList := by
  have hfixed : pattern kind = {word | ∃ spelling,
      (spelling, kind) ∈ TokenKind.keywords ++ TokenKind.symbols ∧ word = spelling.toList} := by
    cases kind <;> first | rfl | exact absurd (by decide) hk
  rw [hfixed] at h
  obtain ⟨spelling, hm, rfl⟩ := h
  exact ⟨_, hm, rfl⟩

/-- Comments and string literals are told by the characters they begin with: other words that begin
so are single symbols. -/
private theorem opening_of_mem_pattern {kind : TokenKind} (h : word ∈ pattern kind) {c : Char}
    (hc : word.head? = some c) (hopen : c = '/' ∨ c = '"') :
    kind ∈ [.lineComment, .blockComment, .stringLiteral] ∨ word ∈ [['/'], ['/', '=']] := by
  by_cases helse : kind ∈ [.whitespace, .ident, .intLiteral, .floatLiteral, .charLiteral]
  · obtain ⟨d, hd, hslash, hquote⟩ := begins_pattern helse word h
    cases hc.symm.trans hd
    exact absurd hopen (by simp [hslash, hquote])
  · by_cases hkind : kind ∈ [.lineComment, .blockComment, .stringLiteral]
    · exact .inl hkind
    · obtain ⟨entry, hentry, rfl⟩ := exists_spelling h (by simp_all)
      have hsymbols : ∀ entry ∈ TokenKind.keywords ++ TokenKind.symbols,
          entry.1.toList.head? = some '/' ∨ entry.1.toList.head? = some '"' →
          entry.1.toList ∈ [['/'], ['/', '=']] := by decide
      refine .inr (hsymbols entry hentry ?_)
      obtain rfl | rfl := hopen
      · exact .inl hc
      · exact .inr hc

/-- A closed comment or literal at the front of a text is the longest word of any pattern there. -/
private theorem length_le_of_opening {kind : TokenKind} {rest : List Char}
    (h : word ∈ pattern kind) (hw : word <+: rest) {c : Char} (hc : rest.head? = some c)
    (hopen : c = '/' ∨ c = '"') {count : Nat} (hcount : 2 ≤ count)
    (hline : ∀ line, '/' :: '/' :: line <+: rest → '\n' ∉ line → line.length + 2 ≤ count)
    (hblock : ∀ body, '/' :: '*' :: (body ++ ['*', '/']) <+: rest → ¬ ['*', '/'] <:+: body →
      body.length + 4 ≤ count)
    (hstring : ∀ body, '"' :: (body ++ ['"']) <+: rest → LiteralBody '"' body →
      body.length + 2 ≤ count) : word.length ≤ count := by
  cases word with
  | nil => exact Nat.zero_le _
  | cons d word =>
    obtain ⟨behind, rfl⟩ := hw
    have hd : (d :: word).head? = some c := hc
    obtain hkind | hsymbol := opening_of_mem_pattern h hd hopen
    · simp only [List.mem_cons, List.not_mem_nil, or_false] at hkind
      obtain rfl | rfl | rfl := hkind
      · obtain ⟨line, he, hm⟩ := mem_lineComment.1 h
        rw [he] at hline ⊢
        exact hline line (List.prefix_append ..) hm
      · obtain ⟨body, he, hm⟩ := mem_blockComment.1 h
        rw [he] at hblock ⊢
        have hlength : ('/' :: '*' :: (body ++ ['*', '/'])).length = body.length + 4 := by simp
        rw [hlength]
        exact hblock body (List.prefix_append ..) hm
      · obtain ⟨body, he, hm⟩ := mem_stringLiteral.1 h
        rw [he] at hstring ⊢
        have hlength : ('"' :: (body ++ ['"'])).length = body.length + 2 := by simp
        rw [hlength]
        exact hstring body (List.prefix_append ..) hm
    · refine Nat.le_trans ?_ hcount
      simp only [List.mem_cons, List.not_mem_nil, or_false] at hsymbol
      obtain he | he := hsymbol <;> rw [he] <;> simp

variable {rest : List Char} {token : Token}

/-- A line comment goes on to the end of its line. -/
private theorem take_run (rest : List Char) :
    ('/' :: '/' :: rest).take (2 + run (· != '\n') rest) =
      '/' :: '/' :: rest.takeWhile (· != '\n') := by
  rw [Nat.add_comm, List.take_succ_cons, List.take_succ_cons, run,
    ← List.prefix_iff_eq_take.1 (List.takeWhile_prefix _)]

/-- Where a block comment is closed, it is closed a first time. -/
theorem exists_commentBody {inside : List Char} (h : ['*', '/'] <:+: inside) :
    ∃ body after, inside = body ++ '*' :: '/' :: after ∧ ¬ ['*', '/'] <:+: body := by
  induction inside with
  | nil => exact absurd h (by simp)
  | cons c inside ih =>
    by_cases hfirst : ['*', '/'] <+: c :: inside
    · obtain ⟨after, hafter⟩ := hfirst
      exact ⟨[], after, hafter.symm, by simp⟩
    · obtain ⟨body, after, rfl, hbody⟩ := ih ((List.infix_cons_iff.1 h).resolve_left hfirst)
      refine ⟨c :: body, after, rfl, fun hm => ?_⟩
      obtain hm | hm := List.infix_cons_iff.1 hm
      · exact hfirst (hm.trans (List.prefix_append (c :: body) _))
      · exact hbody hm

/-- The first closing of a block comment is at one place. -/
private theorem length_commentBody {body other after : List Char} (h : ¬ ['*', '/'] <:+: body)
    (ho : ¬ ['*', '/'] <:+: other)
    (hp : '/' :: '*' :: (other ++ ['*', '/']) <+: '/' :: '*' :: (body ++ '*' :: '/' :: after)) :
    other.length = body.length := by
  obtain ⟨behind, he⟩ := hp
  have hinside : other ++ '*' :: '/' :: behind = body ++ '*' :: '/' :: after := by simpa using he
  have hfound := beforeCommentEnd?_of_body ho behind
  rw [hinside, beforeCommentEnd?_of_body h] at hfound
  exact (Option.some.inj hfound).symm

/-- The closing quote of a literal is at one place. -/
private theorem length_literalBody {body other after : List Char} (h : LiteralBody '"' body)
    (ho : LiteralBody '"' other) (hp : '"' :: (other ++ ['"']) <+: '"' :: (body ++ '"' :: after)) :
    other.length = body.length := by
  obtain ⟨behind, he⟩ := hp
  have hinside : other ++ '"' :: behind = body ++ '"' :: after := by simpa using he
  have hfound := stringLexeme_of_body ho behind
  rw [hinside, stringLexeme_of_body h, Lexeme.mk.injEq] at hfound
  omega

/-- A token with the kind and the characters of the lexeme at the front of a text. -/
private structure Fronts (token : Token) (c : Char) (tail : List Char) : Prop where
  kind : token.kind = (nextLexeme c tail).kind
  text : token.text.toList = (c :: tail).take (nextLexeme c tail).count

private theorem Fronts.lineComment (h : Fronts token '/' ('/' :: rest)) :
    token.kind = .lineComment ∧ token.text.toList = '/' :: '/' :: rest.takeWhile (· != '\n') := by
  obtain ⟨hkind, htext⟩ := h
  rw [nextLexeme_lineComment] at hkind htext
  exact ⟨hkind, htext.trans (take_run rest)⟩

private theorem Fronts.blockComment {body after : List Char}
    (h : Fronts token '/' ('*' :: (body ++ '*' :: '/' :: after))) (hb : ¬ ['*', '/'] <:+: body) :
    token.kind = .blockComment ∧ token.text.toList = '/' :: '*' :: (body ++ ['*', '/']) := by
  obtain ⟨hkind, htext⟩ := h
  rw [nextLexeme_blockComment, blockCommentLexeme_of_body hb] at hkind htext
  have hsplit : '/' :: '*' :: (body ++ '*' :: '/' :: after) =
      ('/' :: '*' :: (body ++ ['*', '/'])) ++ after := by simp
  rw [hsplit, List.take_left' (by simp)] at htext
  exact ⟨hkind, htext⟩

private theorem Fronts.openComment {inside : List Char} (h : Fronts token '/' ('*' :: inside))
    (ho : ¬ ['*', '/'] <:+: inside) :
    token.kind = .unknown ∧ token.text.toList = '/' :: '*' :: inside := by
  obtain ⟨hkind, htext⟩ := h
  rw [nextLexeme_blockComment, blockCommentLexeme_of_open ho] at hkind htext
  rw [List.take_of_length_le (by simp)] at htext
  exact ⟨hkind, htext⟩

private theorem Fronts.stringLiteral {body after : List Char}
    (h : Fronts token '"' (body ++ '"' :: after)) (hb : LiteralBody '"' body) :
    token.kind = .stringLiteral ∧ token.text.toList = '"' :: (body ++ ['"']) := by
  obtain ⟨hkind, htext⟩ := h
  rw [nextLexeme_string, stringLexeme_of_body hb] at hkind htext
  have hsplit : '"' :: (body ++ '"' :: after) = ('"' :: (body ++ ['"'])) ++ after := by simp
  rw [hsplit, List.take_left' (by simp)] at htext
  exact ⟨hkind, htext⟩

private theorem Fronts.openString {inside : List Char} (h : Fronts token '"' inside)
    (ho : ∀ body after, inside = body ++ '"' :: after → ¬ LiteralBody '"' body) :
    token.kind = .unknown := by
  rw [h.kind, nextLexeme_string, stringLexeme_of_open ho]

/-- A token is the longest word of any pattern at the front of a text. -/
private def Longest (token : Token) (rest : List Char) : Prop :=
  token.text.toList ∈ pattern token.kind ∧ ∀ kind word, word ∈ pattern kind →
    word <+: rest → word.length ≤ token.text.toList.length

private theorem Fronts.longest_lineComment (h : Fronts token '/' ('/' :: rest)) :
    Longest token ('/' :: '/' :: rest) := by
  obtain ⟨hkind, htext⟩ := h.lineComment
  rw [Longest, hkind, htext]
  refine ⟨mem_lineComment.2 ⟨_, rfl, fun hm => by simpa using List.mem_takeWhile_imp hm⟩, ?_⟩
  intro kind word hword hp
  refine length_le_of_opening hword hp rfl (.inl rfl) (by simp) ?_ ?_ ?_
  · intro line hline hnone
    obtain ⟨behind, rfl⟩ : line <+: rest := by simpa using hline
    have hall : ∀ d ∈ line, (d != '\n') = true := fun d hd => by
      simpa using fun he : d = '\n' => hnone (he ▸ hd)
    rw [List.takeWhile_append_of_pos hall]
    simp
  · intro body hbody
    simp at hbody
  · intro body hbody
    simp at hbody

private theorem Fronts.longest_blockComment {inside : List Char}
    (h : Fronts token '/' ('*' :: inside)) (hne : token.kind ≠ .unknown) :
    Longest token ('/' :: '*' :: inside) := by
  by_cases hclosed : ['*', '/'] <:+: inside
  · obtain ⟨body, after, rfl, hbody⟩ := exists_commentBody hclosed
    obtain ⟨hkind, htext⟩ := h.blockComment hbody
    rw [Longest, hkind, htext]
    refine ⟨mem_blockComment.2 ⟨body, rfl, hbody⟩, fun kind word hword hp => ?_⟩
    refine length_le_of_opening hword hp rfl (.inl rfl) (by simp) ?_ ?_ ?_
    · intro line hline
      simp at hline
    · intro other ho hother
      simp [length_commentBody hbody hother ho]
    · intro other ho
      simp at ho
  · exact absurd (h.openComment hclosed).1 hne

private theorem Fronts.longest_stringLiteral {inside : List Char} (h : Fronts token '"' inside)
    (hne : token.kind ≠ .unknown) : Longest token ('"' :: inside) := by
  by_cases hclosed : ∃ body after, inside = body ++ '"' :: after ∧ LiteralBody '"' body
  · obtain ⟨body, after, rfl, hbody⟩ := hclosed
    obtain ⟨hkind, htext⟩ := h.stringLiteral hbody
    rw [Longest, hkind, htext]
    refine ⟨mem_stringLiteral.2 ⟨body, rfl, hbody⟩, fun kind word hword hp => ?_⟩
    refine length_le_of_opening hword hp rfl (.inr rfl) (by simp) ?_ ?_ ?_
    · intro line hline
      simp at hline
    · intro other ho
      simp at ho
    · intro other ho hother
      simp [length_literalBody hbody hother ho]
  · exact absurd (h.openString fun body after he hb => hclosed ⟨body, after, he, hb⟩) hne

/-- A closed comment or literal is the longest word of any pattern. -/
private theorem Fronts.longest {c : Char} {tail : List Char} (h : Fronts token c tail)
    (hopen : ['/', '/'] <+: c :: tail ∨ ['/', '*'] <+: c :: tail ∨ ['"'] <+: c :: tail)
    (hne : token.kind ≠ .unknown) : Longest token (c :: tail) := by
  obtain ⟨more, he⟩ | ⟨inside, he⟩ | ⟨inside, he⟩ := hopen
  · cases he
    exact h.longest_lineComment
  · cases he
    exact h.longest_blockComment hne
  · cases he
    exact h.longest_stringLiteral hne

/-- What is not closed has no word of the pattern that it opens. -/
private theorem Fronts.unknown {c : Char} {tail : List Char} (h : Fronts token c tail)
    (hk : token.kind = .unknown) {kind : TokenKind} (hkind : kind ∈ [.blockComment, .stringLiteral])
    {word : List Char} (hword : word ∈ pattern kind) : ¬ word <+: c :: tail := by
  intro hp
  simp only [List.mem_cons, List.not_mem_nil, or_false] at hkind
  obtain rfl | rfl := hkind
  · obtain ⟨body, rfl, hbody⟩ := mem_blockComment.1 hword
    obtain ⟨after, he⟩ := hp
    obtain ⟨rfl, rfl⟩ : '/' = c ∧ '*' :: (body ++ '*' :: '/' :: after) = tail := by simpa using he
    exact absurd ((h.blockComment hbody).1.symm.trans hk) (by decide)
  · obtain ⟨body, rfl, hbody⟩ := mem_stringLiteral.1 hword
    obtain ⟨after, he⟩ := hp
    obtain ⟨rfl, rfl⟩ : '"' = c ∧ body ++ '"' :: after = tail := by simpa using he
    exact absurd ((h.stringLiteral hbody).1.symm.trans hk) (by decide)

/-- What the token at the front of the remaining text is, where that opens a comment or a string
literal. -/
structure Ends (rest : List Char) (token : Token) : Prop where
  lineComment : ['/', '/'] <+: rest →
    token.kind = .lineComment ∧ token.text.toList = rest.takeWhile (· != '\n')
  blockComment : ∀ body after, rest = '/' :: '*' :: (body ++ '*' :: '/' :: after) →
    ¬ ['*', '/'] <:+: body →
      token.kind = .blockComment ∧ token.text.toList = '/' :: '*' :: (body ++ ['*', '/'])
  openComment : ∀ inside, rest = '/' :: '*' :: inside → ¬ ['*', '/'] <:+: inside →
    token.kind = .unknown ∧ token.text.toList = rest
  stringLiteral : ∀ body after, rest = '"' :: (body ++ '"' :: after) → LiteralBody '"' body →
    token.kind = .stringLiteral ∧ token.text.toList = '"' :: (body ++ ['"'])
  openString : ∀ inside, rest = '"' :: inside →
    (∀ body after, inside = body ++ '"' :: after → ¬ LiteralBody '"' body) → token.kind = .unknown
  /-- What is closed is the longest word of any pattern. -/
  longest : ['/', '/'] <+: rest ∨ ['/', '*'] <+: rest ∨ ['"'] <+: rest → token.kind ≠ .unknown →
    token.text.toList ∈ pattern token.kind ∧
      ∀ kind word, word ∈ pattern kind → word <+: rest → word.length ≤ token.text.toList.length
  /-- Where nothing matches, nothing is closed. -/
  unknown : token.kind = .unknown →
    ∀ kind ∈ [.blockComment, .stringLiteral], ∀ word ∈ pattern kind, ¬ word <+: rest

/-- The token at the front of a text ends where it should. -/
private theorem Fronts.ends {c : Char} {tail : List Char} (h : Fronts token c tail) :
    Ends (c :: tail) token where
  lineComment := by
    rintro ⟨more, he⟩
    cases he
    simpa using h.lineComment
  blockComment := by
    intro body after he hb
    cases he
    exact h.blockComment hb
  openComment := by
    intro inside he ho
    cases he
    exact h.openComment ho
  stringLiteral := by
    intro body after he hb
    cases he
    exact h.stringLiteral hb
  openString := by
    intro inside he ho
    cases he
    exact h.openString ho
  longest := h.longest
  unknown hk kind hkind word hword := h.unknown hk hkind hword

end Lexer

/-- Wherever a token begins, comments and string literals end where they should: a line comment
before the next line feed, a block comment with the first `*/` behind the opening, and a string
literal with the first quote that is not escaped, on the same line; and what is not closed is
unknown. -/
theorem ends_tokenize {text : String} {before after : List Token} {token : Token}
    {rest : List Char} (h : tokenize text = before ++ token :: after)
    (hr : text.toList = before.flatMap (·.text.toList) ++ rest) : Lexer.Ends rest token := by
  obtain ⟨rfl, heof⟩ | ⟨c, tail, rfl, hkind, htext⟩ := Lexer.lexeme_of_split (Nat.le_refl _) h hr
  · constructor <;> simp [heof]
  · exact Lexer.Fronts.ends ⟨hkind, htext⟩

/-- A string literal goes on over an escaped quote. -/
theorem ends_escapedQuote :
    ∃ before token after, tokenize "/**x*/\"a\\\"b\"//c" = before ++ token :: after ∧
      token.kind = .stringLiteral ∧ token.text.toList = ['"', 'a', '\\', '"', 'b', '"'] := by
  have htokens : tokenize "/**x*/\"a\\\"b\"//c" =
      [⟨.blockComment, "/**x*/", 0, 6, 1, 0, 0⟩] ++
        ⟨.stringLiteral, "\"a\\\"b\"", 6, 12, 1, 6, 1⟩ ::
        [⟨.lineComment, "//c", 12, 15, 1, 12, 2⟩, ⟨.eof, "", 15, 15, 1, 15, 3⟩] := by decide +kernel
  have hbody : Lexer.LiteralBody '"' ['a', '\\', '"', 'b'] :=
    (Lexer.mem_kstar_literalItem (by decide)).1
      (Lexer.take_literalItems '"' ['a', '\\', '"', 'b', '"', '/', '/', 'c'])
  exact ⟨_, _, _, htokens,
    (ends_tokenize htokens rfl).stringLiteral _ ['/', '/', 'c'] rfl hbody⟩

end JavaGraph
