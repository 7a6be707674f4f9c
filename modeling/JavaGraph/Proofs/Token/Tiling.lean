import Mathlib.Data.List.DropRight
import JavaGraph.Proofs.Parser.Measured
/-!
# Tokens tile their text

A token stands behind some characters of its text and before the others. Its bytes, its line and its
column are those of the characters before it, and the index of lines answers with the same line and
column. Each token begins where the one before it ends, so that no byte is left out and none is
covered twice.
-/

/-!
## A text is cut into tokens to its end

Every lexeme has a character at least, so the bound on the number of lexemes is never reached. The
texts of the tokens put together are the text itself, and the only token that marks an end stands
behind all others.
-/

namespace JavaGraph

namespace Lexer

/-- A lexeme has a character at least, and is not the end. -/
def Lexeme.Proper (lexeme : Lexeme) : Prop := 0 < lexeme.count ∧ lexeme.kind ≠ .eof

theorem proper_mk {kind : TokenKind} {count : Nat} (hk : kind ≠ .eof) (hc : 0 < count) :
    (Lexeme.mk kind count).Proper := ⟨hc, hk⟩

theorem proper_decimalLexeme {digits : Nat} (h : 0 < digits) (cs : List Char) :
    (decimalLexeme digits cs).Proper := by
  unfold decimalLexeme
  cases cs with
  | nil => exact proper_mk (by decide) (by omega)
  | cons c rest =>
    dsimp only
    by_cases hpoint : c = '.'
    · rw [if_pos hpoint]
      exact proper_mk (by decide) (by omega)
    rw [if_neg hpoint]
    by_cases hexponent : 0 < exponentLength (c :: rest)
    · rw [if_pos hexponent]
      exact proper_mk (by decide) (by omega)
    rw [if_neg hexponent]
    by_cases hsuffix : c ∈ floatSuffixes
    · rw [if_pos hsuffix]
      exact proper_mk (by decide) (by omega)
    · rw [if_neg hsuffix]
      exact proper_mk (by decide) (by omega)

theorem proper_numberLexeme (c : Char) (cs : List Char) : (numberLexeme c cs).Proper := by
  unfold numberLexeme
  extract_lets radix digits
  by_cases hradix : 0 < radix
  · rw [if_pos hradix]
    exact proper_mk (by decide) (by omega)
  · rw [if_neg hradix]
    exact proper_decimalLexeme (Nat.add_pos_left Nat.one_pos _) _

theorem kind_keywords_ne : ∀ keyword ∈ TokenKind.keywords, keyword.2 ≠ .eof := by decide

theorem proper_wordLexeme (c : Char) (cs : List Char) : (wordLexeme c cs).Proper := by
  unfold wordLexeme
  extract_lets count spelling
  have hcount : 0 < count := Nat.add_pos_left Nat.one_pos _
  split
  · next h => exact ⟨hcount, kind_keywords_ne _ (List.mem_of_find?_eq_some h)⟩
  · exact proper_mk (by decide) (by omega)

theorem proper_symbols : ∀ symbol ∈ TokenKind.symbols,
    0 < symbol.1.toList.length ∧ symbol.2 ≠ .eof := by decide

theorem proper_symbolLexeme (cs : List Char) : (symbolLexeme cs).Proper := by
  unfold symbolLexeme
  split
  · next h => exact proper_symbols _ (List.mem_of_find?_eq_some h)
  · exact proper_mk (by decide) (by omega)

theorem proper_stringLexeme (cs : List Char) : (stringLexeme cs).Proper := by
  unfold stringLexeme
  extract_lets items
  split <;> exact proper_mk (by decide) (by omega)

theorem proper_charLexeme (cs : List Char) : (charLexeme cs).Proper := by
  unfold charLexeme
  extract_lets items
  split <;> exact proper_mk (by decide) (by omega)

theorem proper_blockCommentLexeme (cs : List Char) : (blockCommentLexeme cs).Proper := by
  unfold blockCommentLexeme
  split <;> exact proper_mk (by decide) (by omega)

/-- Whatever comes next has a character at least. -/
theorem proper_nextLexeme (c : Char) (cs : List Char) : (nextLexeme c cs).Proper := by
  unfold nextLexeme
  by_cases hlayout : isLayout c
  · rw [if_pos hlayout]
    exact proper_mk (by decide) (by omega)
  rw [if_neg hlayout]
  by_cases hword : isIdentStart c
  · rw [if_pos hword]
    exact proper_wordLexeme c cs
  rw [if_neg hword]
  by_cases hdigit : c.isDigit
  · rw [if_pos hdigit]
    exact proper_numberLexeme c cs
  rw [if_neg hdigit]
  by_cases hstring : c = '"'
  · rw [if_pos hstring]
    exact proper_stringLexeme cs
  rw [if_neg hstring]
  by_cases hchar : c = '\''
  · rw [if_pos hchar]
    exact proper_charLexeme cs
  rw [if_neg hchar]
  split
  · exact proper_mk (by decide) (by omega)
  · exact proper_blockCommentLexeme _
  · split
    · exact proper_mk (by decide) (by omega)
    · exact proper_symbolLexeme _
  · exact proper_symbolLexeme _

/-- With a round for every character, the tokens cover all characters. The last of them is the end,
and no other is. -/
theorem tokensFrom_covers {fuel : Nat} {cs : List Char} (h : cs.length ≤ fuel)
    (place : Text.Position) (index : Nat) :
    (tokensFrom fuel place index cs).flatMap (·.text.toList) = cs ∧
      ∃ tokens last, tokensFrom fuel place index cs = tokens ++ [last] ∧ last.kind = .eof ∧
        ∀ token ∈ tokens, token.kind ≠ .eof := by
  induction fuel generalizing place index cs with
  | zero =>
    obtain rfl : cs = [] := List.eq_nil_of_length_eq_zero (Nat.le_zero.1 h)
    exact ⟨rfl, [], _, rfl, rfl, by simp⟩
  | succ fuel ih =>
    cases cs with
    | nil => exact ⟨rfl, [], _, rfl, rfl, by simp⟩
    | cons c rest =>
      have hproper := proper_nextLexeme c rest
      generalize hlexeme : nextLexeme c rest = lexeme at hproper
      have hless : ((c :: rest).drop lexeme.count).length ≤ fuel := by
        have := hproper.1
        rw [List.length_drop]
        rw [List.length_cons] at h ⊢
        omega
      obtain ⟨hcovers, tokens, last, heq, hlast, hothers⟩ :=
        ih hless (place.advance ((c :: rest).take lexeme.count)) (index + 1)
      simp only [tokensFrom, hlexeme]
      refine ⟨?_, _ :: tokens, last, by rw [heq, List.cons_append], hlast, ?_⟩
      · rw [List.flatMap_cons, hcovers]
        simp [tokenAt]
      · rintro token (_ | ⟨_, htoken⟩)
        · exact hproper.2
        · exact hothers token htoken

end Lexer

/-- The texts of the tokens put together are the text. -/
theorem flatMap_text_tokenize (text : String) :
    (tokenize text).flatMap (·.text.toList) = text.toList :=
  (Lexer.tokensFrom_covers (Nat.le_refl _) _ _).1

/-- The tokens of a text end with the one that marks the end. -/
theorem tokenize_eq_append (text : String) : ∃ tokens last, tokenize text = tokens ++ [last] ∧
    last.kind = .eof ∧ ∀ token ∈ tokens, token.kind ≠ .eof :=
  (Lexer.tokensFrom_covers (Nat.le_refl _) _ _).2

end JavaGraph

/-! ## Places of tokens -/

namespace JavaGraph

namespace Text

/-! ### Places by what comes before them -/

/-- The characters behind the last line feed. -/
def lastLine (cs : List Char) : List Char := cs.rtakeWhile (· != '\n')

@[simp] theorem lastLine_nil : lastLine [] = [] := rfl

theorem lastLine_concat_newline (cs : List Char) : lastLine (cs ++ ['\n']) = [] :=
  List.rtakeWhile_concat_neg _ _ _ (by decide)

theorem lastLine_concat {c : Char} (h : c ≠ '\n') (cs : List Char) :
    lastLine (cs ++ [c]) = lastLine cs ++ [c] :=
  List.rtakeWhile_concat_pos _ _ _ (by simpa using h)

/-- The column is the number of bytes behind the last line feed. -/
theorem Position.column_advance (cs : List Char) :
    (start.advance cs).column = byteLength (lastLine cs) := by
  induction cs using List.reverseRecOn with
  | nil => rfl
  | append_singleton cs c ih =>
    rw [advance_append, advance_cons, advance_nil, step]
    by_cases hc : c = '\n'
    · subst hc
      rw [if_pos rfl, lastLine_concat_newline, byteLength_nil]
    · rw [if_neg hc, lastLine_concat hc, byteLength_append, ih, byteLength_cons, byteLength_nil,
        Nat.add_zero]

/-- The place behind some characters at the beginning of a text. -/
theorem Position.advance_start (cs : List Char) :
    start.advance cs = ⟨byteLength cs, 1 + cs.count '\n', byteLength (lastLine cs)⟩ := by
  rw [← column_advance]
  have hoffset := offset_advance start cs
  have hline := line_advance start cs
  simp only [start, Nat.zero_add] at hoffset hline ⊢
  rw [← hoffset, ← hline]

/-! ### The index of lines -/

namespace LineIndex

theorem startsAfter_append (offset : Nat) (cs ds : List Char) :
    startsAfter offset (cs ++ ds) =
      startsAfter offset cs ++ startsAfter (offset + byteLength cs) ds := by
  induction cs generalizing offset with
  | nil => rfl
  | cons c cs ih =>
    simp only [List.cons_append, startsAfter, ih, byteLength_cons, Nat.add_assoc]
    split <;> simp

/-- A line that starts among some characters starts behind one of them. -/
theorem bounds_startsAfter {offset start : Nat} {cs : List Char}
    (h : start ∈ startsAfter offset cs) : offset < start ∧ start ≤ offset + byteLength cs := by
  induction cs generalizing offset with
  | nil => cases h
  | cons c cs ih =>
    have hc := c.utf8Size_pos
    rw [startsAfter] at h
    rw [byteLength_cons]
    split at h
    · rcases List.mem_cons.1 h with rfl | h
      · omega
      · have := ih h
        omega
    · have := ih h
      omega

theorem length_startsAfter (offset : Nat) (cs : List Char) :
    (startsAfter offset cs).length = cs.count '\n' := by
  induction cs generalizing offset with
  | nil => rfl
  | cons c cs ih =>
    rw [startsAfter]
    split
    · next hc =>
      subst hc
      simp [ih]
    · next hc => simp [ih, hc]

/-- Behind the start of the last line there are the bytes of that line. -/
theorem getLast_starts (cs : List Char) :
    (0 :: startsAfter 0 cs).getLast? = some (byteLength cs - byteLength (lastLine cs)) := by
  induction cs using List.reverseRecOn with
  | nil => rfl
  | append_singleton cs c ih =>
    simp only [startsAfter_append, startsAfter, byteLength_append, byteLength_cons, byteLength_nil]
    by_cases hc : c = '\n'
    · subst hc
      rw [if_pos rfl, ← List.cons_append, List.getLast?_append, lastLine_concat_newline]
      simp
    · rw [if_neg hc, List.append_nil, ih, lastLine_concat hc, byteLength_append, byteLength_cons,
        byteLength_nil]
      congr 1
      omega

/-- The lines that start no later than a place are those that start before it in the text. -/
theorem takeWhile_starts (before after : List Char) :
    (0 :: startsAfter 0 (before ++ after)).takeWhile (· ≤ byteLength before) =
      0 :: startsAfter 0 before := by
  rw [startsAfter_append, ← List.cons_append, Nat.zero_add, List.takeWhile_append_of_pos]
  · have hnone : (startsAfter (byteLength before) after).takeWhile (· ≤ byteLength before) = [] := by
      cases hstarts : startsAfter (byteLength before) after with
      | nil => rfl
      | cons start rest =>
        have hstart := bounds_startsAfter (hstarts ▸ List.mem_cons_self : start ∈ _)
        rw [List.takeWhile_cons_of_neg (by simpa using hstart.1)]
    rw [hnone, List.append_nil]
  · intro start hs
    rcases List.mem_cons.1 hs with rfl | hs
    · simp
    · have := bounds_startsAfter hs
      simp only [decide_eq_true_eq]
      omega

/-- The index answers for a place with what comes before it in the text. -/
theorem locate_ofText {text : String} {before after : List Char}
    (h : text.toList = before ++ after) :
    (ofText text).locate (byteLength before) =
      ⟨before.count '\n', byteLength (lastLine before)⟩ := by
  have hle : byteLength (lastLine before) ≤ byteLength before := by
    obtain ⟨front, hfront⟩ : lastLine before <:+ before := List.rtakeWhile_suffix ..
    conv_rhs => rw [← hfront, byteLength_append]
    omega
  rw [locate, ofText, h, takeWhile_starts, getLast_starts, List.length_cons, length_startsAfter]
  simp only [Nat.add_sub_cancel, Option.getD_some, LineColumn.mk.injEq, true_and]
  omega

end LineIndex

end Text

open Text

/-- Where a token stands: what comes before it in the text decides its bytes, its line and its
column. -/
def Token.StandsIn (token : Token) (text : String) : Prop :=
  ∃ before after, text.toList = before ++ token.text.toList ++ after ∧
    token.start = byteLength before ∧ token.stop = byteLength (before ++ token.text.toList) ∧
    token.line = 1 + before.count '\n' ∧ token.column = byteLength (lastLine before)

namespace Token.StandsIn

variable {token : Token} {text : String}

/-- The text of a token is the slice of its bytes. -/
theorem text_eq (h : token.StandsIn text) : token.text = slice text token.start token.stop := by
  obtain ⟨before, after, he, hstart, hstop, -, -⟩ := h
  have hslice := slice_append before token.text.toList after
  rwa [← he, String.ofList_toList, ← byteLength_append, ← hstart, ← hstop, String.ofList_toList,
    eq_comm] at hslice

/-- A token stands where the index of lines finds it. -/
theorem locate_start (h : token.StandsIn text) :
    (LineIndex.ofText text).locate token.start = ⟨token.line - 1, token.column⟩ := by
  obtain ⟨before, after, he, hstart, -, hline, hcolumn⟩ := h
  rw [List.append_assoc] at he
  rw [hstart, LineIndex.locate_ofText he, hline, hcolumn, Nat.add_sub_cancel_left]

end Token.StandsIn

namespace Lexer

/-- A token that covers some characters stands between those before it and those after it. -/
theorem standsIn_tokenAt (kind : TokenKind) (before covered after : List Char) (index : Nat) :
    (tokenAt kind (Position.start.advance before) covered index).StandsIn
      (String.ofList (before ++ covered ++ after)) := by
  refine ⟨before, after, ?_, ?_⟩ <;> simp [tokenAt, Position.advance_start]

/-- The tokens of what is left of a text behind some characters. -/
inductive Tiling : (before rest : List Char) → List Token → Prop
  | done (before : List Char) (index : Nat) :
    Tiling before [] [tokenAt .eof (Position.start.advance before) [] index]
  | next {before covered rest : List Char} {tokens : List Token} {kind : TokenKind} (index : Nat)
    (hk : kind ≠ .eof) (hc : 0 < byteLength covered) (h : Tiling (before ++ covered) rest tokens) :
    Tiling before (covered ++ rest)
      (tokenAt kind (Position.start.advance before) covered index :: tokens)

/-- What a lexeme covers has a byte at least. -/
theorem byteLength_covered_pos (c : Char) (rest : List Char) :
    0 < byteLength ((c :: rest).take (nextLexeme c rest).count) := by
  obtain ⟨count, hcount⟩ := Nat.exists_eq_succ_of_ne_zero (proper_nextLexeme c rest).1.ne'
  have := c.utf8Size_pos
  rw [hcount, List.take_succ_cons, byteLength_cons]
  omega

theorem tiling_tokensFrom {fuel : Nat} {cs : List Char} (h : cs.length ≤ fuel)
    (before : List Char) (index : Nat) :
    Tiling before cs (tokensFrom fuel (Position.start.advance before) index cs) := by
  induction fuel generalizing before index cs with
  | zero =>
    obtain rfl : cs = [] := List.eq_nil_of_length_eq_zero (Nat.le_zero.1 h)
    exact .done before index
  | succ fuel ih =>
    cases cs with
    | nil => exact .done before index
    | cons c rest =>
      have hproper := proper_nextLexeme c rest
      have hless : ((c :: rest).drop (nextLexeme c rest).count).length ≤ fuel := by
        have := hproper.1
        rw [List.length_drop]
        rw [List.length_cons] at h ⊢
        omega
      have htail := ih hless (before ++ (c :: rest).take (nextLexeme c rest).count) (index + 1)
      rw [Position.advance_append] at htail
      have hnext := Tiling.next index hproper.2 (byteLength_covered_pos c rest) htail
      rwa [List.take_append_drop] at hnext

namespace Tiling

variable {before rest : List Char} {tokens : List Token}

/-- The first token begins behind the characters before it. -/
theorem start_head (h : Tiling before rest tokens) :
    ∃ first behind, tokens = first :: behind ∧ first.start = byteLength before := by
  cases h <;> exact ⟨_, _, rfl, by simp [tokenAt, Position.advance_start]⟩

/-- Each token begins where the one before it ends. -/
theorem isChain (h : Tiling before rest tokens) :
    tokens.IsChain fun token next => token.stop = next.start := by
  induction h with
  | done before index => exact .singleton _
  | next index hk hc h ih =>
    obtain ⟨first, behind, rfl, hstart⟩ := h.start_head
    refine List.isChain_cons_cons.2 ⟨?_, ih⟩
    rw [hstart]
    simp [tokenAt, Position.advance_start]

/-- No token is on a line before that of what is left. -/
theorem le_line (h : Tiling before rest tokens) :
    ∀ token ∈ tokens, 1 + before.count '\n' ≤ token.line := by
  induction h with
  | done before index =>
    rw [List.forall_mem_singleton]
    simp [tokenAt, Position.advance_start]
  | @next before covered rest tokens kind index hk hc h ih =>
    refine List.forall_mem_cons.2 ⟨by simp [tokenAt, Position.advance_start], fun token ht => ?_⟩
    refine Nat.le_trans (Nat.add_le_add_left ?_ 1) (ih token ht)
    rw [List.count_append]
    exact Nat.le_add_right ..

/-- The lines of tokens ascend. -/
theorem ascending (h : Tiling before rest tokens) :
    (tokens.map (·.line)).Pairwise (· ≤ ·) := by
  induction h with
  | done before index => exact List.pairwise_singleton ..
  | @next before covered rest tokens kind index hk hc h ih =>
    rw [List.map_cons, List.pairwise_cons, List.forall_mem_map]
    refine ⟨fun token ht => Nat.le_trans ?_ (h.le_line token ht), ih⟩
    simp only [tokenAt, Position.advance_start, List.count_append]
    omega

/-- No token begins before what is left. -/
theorem le_start (h : Tiling before rest tokens) :
    ∀ token ∈ tokens, byteLength before ≤ token.start := by
  induction h with
  | done before index =>
    rw [List.forall_mem_singleton]
    simp [tokenAt, Position.advance_start]
  | @next before covered rest tokens kind index hk hc h ih =>
    refine List.forall_mem_cons.2 ⟨by simp [tokenAt, Position.advance_start], fun token ht => ?_⟩
    have hlater := ih token ht
    rw [byteLength_append] at hlater
    omega

/-- Tokens begin one after the other. -/
theorem startsAscending (h : Tiling before rest tokens) :
    tokens.Pairwise fun token later => token.start ≤ later.start := by
  induction h with
  | done before index => exact List.pairwise_singleton ..
  | @next before covered rest tokens kind index hk hc h ih =>
    refine List.pairwise_cons.2 ⟨fun token ht => ?_, ih⟩
    have hlater := h.le_start token ht
    rw [byteLength_append] at hlater
    simp only [tokenAt, Position.advance_start]
    omega

/-- All tokens stand in the whole text. -/
theorem standsIn (h : Tiling before rest tokens) :
    ∀ token ∈ tokens, token.StandsIn (String.ofList (before ++ rest)) := by
  induction h with
  | done before index =>
    rw [List.forall_mem_singleton]
    simpa using standsIn_tokenAt .eof before [] [] index
  | @next before covered rest tokens kind index hk hc h ih =>
    rw [List.append_assoc] at ih
    rw [List.forall_mem_cons]
    refine ⟨?_, ih⟩
    rw [← List.append_assoc]
    exact standsIn_tokenAt kind before covered rest index

/-- Tokens with bytes come before the end, which has none. -/
theorem ends (h : Tiling before rest tokens) :
    ∃ front last, tokens = front ++ [last] ∧ last.kind = .eof ∧
      last.start = byteLength (before ++ rest) ∧ last.stop = last.start ∧
      ∀ token ∈ front, token.kind ≠ .eof ∧ token.start < token.stop := by
  induction h with
  | done before index =>
    refine ⟨[], _, rfl, rfl, ?_, ?_, nofun⟩ <;> simp [tokenAt, Position.advance_start]
  | next index hk hc h ih =>
    obtain ⟨front, last, rfl, hlast, hstart, hstop, hfront⟩ := ih
    refine ⟨_ :: front, last, rfl, hlast, ?_, hstop, List.forall_mem_cons.2 ⟨⟨hk, ?_⟩, hfront⟩⟩
    · rw [hstart, List.append_assoc]
    · simpa [tokenAt] using hc

end Tiling

end Lexer

/-- The lines of the tokens of a text ascend. -/
theorem ascending_tokenize (text : String) :
    ((tokenize text).map (·.line)).Pairwise (· ≤ ·) := by
  have htiling : Lexer.Tiling [] text.toList (tokenize text) :=
    Lexer.tiling_tokensFrom (Nat.le_refl _) [] 0
  exact htiling.ascending

/-- The tokens of a text begin one after the other. -/
theorem startsAscending_tokenize (text : String) :
    (tokenize text).Pairwise fun token later => token.start ≤ later.start := by
  have htiling : Lexer.Tiling [] text.toList (tokenize text) :=
    Lexer.tiling_tokensFrom (Nat.le_refl _) [] 0
  exact htiling.startsAscending

/-- The tokens of a text cover it without a gap and know where they stand. -/
structure Tiled (text : String) (tokens : List Token) : Prop where
  /-- Tokens with bytes come before the only token that marks the end. It stands at the end of the
  text and has no bytes. -/
  ends : ∃ front last, tokens = front ++ [last] ∧ last.kind = .eof ∧
    last.start = byteLength text.toList ∧ last.stop = last.start ∧
    ∀ token ∈ front, token.kind ≠ .eof ∧ token.start < token.stop
  /-- The first token begins with the text. -/
  begins : ∃ first behind, tokens = first :: behind ∧ first.start = 0
  /-- Each token begins where the one before it ends. -/
  contiguous : tokens.IsChain fun token next => token.stop = next.start
  /-- The text of a token is the slice of its bytes. -/
  slices : ∀ token ∈ tokens, token.text = slice text token.start token.stop
  /-- The texts put together are the text. -/
  covers : tokens.flatMap (·.text.toList) = text.toList
  /-- Tokens are numbered from 0 on. -/
  numbered : tokens.map (·.index) = List.range tokens.length
  /-- The line and the column of a token are told by the line feeds before it. -/
  placed : ∀ token ∈ tokens, token.StandsIn text
  /-- The index of lines finds the same line and column. -/
  located : ∀ token ∈ tokens,
    (LineIndex.ofText text).locate token.start = ⟨token.line - 1, token.column⟩

/-- Every text is tiled by its tokens. -/
theorem tiled_tokenize (text : String) : Tiled text (tokenize text) := by
  have htiling : Lexer.Tiling [] text.toList (tokenize text) :=
    Lexer.tiling_tokensFrom (Nat.le_refl _) [] 0
  have hplaced : ∀ token ∈ tokenize text, token.StandsIn text := by
    simpa using htiling.standsIn
  exact {
    ends := htiling.ends
    begins := htiling.start_head
    contiguous := htiling.isChain
    slices := fun token ht => (hplaced token ht).text_eq
    covers := flatMap_text_tokenize text
    numbered := index_tokenize text
    placed := hplaced
    located := fun token ht => (hplaced token ht).locate_start }

end JavaGraph
