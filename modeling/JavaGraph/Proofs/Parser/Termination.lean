import JavaGraph.Proofs.Parser.Measured
import JavaGraph.Proofs.Parser.Rounds
import JavaGraph.Proofs.Parser.Scans
import JavaGraph.Proofs.Token.Tiling
/-!
# Parsing comes to an end

Every text is parsed to its end. The bounds that make the parser a total function are never
reached: not the one on the rounds of a loop, not the one on the nesting of constructs, and not the
one on the rounds of a scan. The depths that scans count do not fall below nothing, and the numbers
of tokens that are looked up are those of tokens.
-/

namespace JavaGraph

namespace Parser

open Parse

/-! ### Tokens by their numbers -/

/-- The numbers of the tokens that are neither layout nor comments, the end included. -/
def seenNumbers (tokens : List Token) : List Nat :=
  (tokens.filter fun token => !token.kind.isTrivia).map (·.index)

/-- The token `n` places behind the first `passed` ones, looked up by its number. Beyond the last
token this is the last one. -/
def numbered? (tokens : List Token) (passed n : Nat) : Option Token :=
  let numbers := seenNumbers tokens
  (numbers[passed + n]? <|> numbers.getLast?).bind fun number => tokens[number]?

/-- The tokens that are no layout or comments are those that the grammar sees, and the end. -/
theorem filter_seen {text : String} {tokens : List Token} {last : Token}
    (h : tokenize text = tokens ++ [last]) (hl : last.kind = .eof)
    (ht : ∀ token ∈ tokens, token.kind ≠ .eof) :
    (tokenize text).filter (fun token => !token.kind.isTrivia) =
      (tokenize text).filter Token.isSignificant ++ [last] := by
  have hrest : tokens.filter (fun token => !token.kind.isTrivia) =
      tokens.filter Token.isSignificant := by
    apply List.filter_congr
    intro token htoken
    simp [Token.isSignificant, ht token htoken]
  rw [h, List.filter_append, List.filter_append, hrest]
  simp [Token.isSignificant, hl, TokenKind.isTrivia]

/-- Beyond the end of a list its last entry is found. -/
theorem getElem?_or_getLast? {α : Type} (front : List α) (last : α) (k : Nat) :
    ((front ++ [last])[k]? <|> (front ++ [last]).getLast?) = some (front[k]?.getD last) := by
  by_cases hk : k < front.length
  · simp [List.getElem?_append_left hk, List.getElem?_eq_getElem hk]
  · have hk := Nat.le_of_not_lt hk
    rw [List.getElem?_append_right hk, List.getElem?_eq_none hk]
    cases k - front.length <;> simp

/-- As long as the tokens ahead are the last ones of those that the grammar sees, every token that
is looked at is found under its number. -/
theorem numbered?_eq_some {text : String} {ahead passed : List Token}
    (h : (tokenize text).filter Token.isSignificant = passed ++ ahead) (n : Nat) :
    ∃ token, numbered? (tokenize text) passed.length n = some token ∧
      token.kind = kindAt ahead n := by
  obtain ⟨tokens, last, heq, hl, ht⟩ := tokenize_eq_append text
  have hseen := filter_seen heq hl ht
  rw [h] at hseen
  have hnumbers : seenNumbers (tokenize text) =
      (passed ++ ahead).map (·.index) ++ [last.index] := by
    rw [seenNumbers, hseen, List.map_append, List.map_singleton]
  have hat : (passed ++ ahead)[passed.length + n]? = ahead[n]? := by
    rw [List.getElem?_append_right (Nat.le_add_right _ _), Nat.add_sub_cancel_left]
  have hmem : (ahead[n]?).getD last ∈ tokenize text := by
    have hgot : (ahead[n]?).getD last ∈ passed ++ ahead ++ [last] := by
      cases hn : ahead[n]? with
      | none => simp
      | some token => simp [List.mem_of_getElem? hn]
    rw [← hseen] at hgot
    exact (List.mem_filter.1 hgot).1
  refine ⟨(ahead[n]?).getD last, ?_, ?_⟩
  · have hnumber : (((passed ++ ahead).map (·.index))[passed.length + n]?).getD last.index =
        ((ahead[n]?).getD last).index := by
      rw [List.getElem?_map, hat]
      cases ahead[n]? <;> rfl
    simp only [numbered?, hnumbers, getElem?_or_getLast?, hnumber, Option.bind_some]
    exact getElem?_index hmem
  · unfold kindAt
    cases ahead[n]? with
    | none => exact hl
    | some token => rfl

/-! ### The whole parser -/

/-- Where the lists of the grammar stand in it. -/
structure Listing.Placed : Prop where
  file : compilationUnit = (do
    if ← look atPackageDeclaration then recovering .declaration packageDecl
    loop Listing.imports.round
    loop Listing.declarations.round)
  body : Parser.members nonterminal = loop Listing.members.round
  enumBody : Parser.enumBody nonterminal = inNode .enumBody (do
    expect .lBrace "`\x7b`"
    loop Listing.constants.round
    if ← eat .semicolon then Parser.members nonterminal
    expectClosingBrace)
  block (ends : List TokenKind) :
    blockStatements nonterminal (typeDeclaration nonterminal) ends = loop (Listing.statements ends).round
  switch : switchStmt nonterminal (typeDeclaration nonterminal) = inNode .switchStmt (do
    bump
    condition nonterminal
    expect .lBrace "`\x7b`"
    loop Listing.cases.round
    expectClosingBrace)
  resources : Parser.resources nonterminal = loop Listing.resources.round
  array : arrayInit nonterminal = inNode .arrayInit (do
    expect .lBrace "`\x7b`"
    loop Listing.elements.round
    expect .rBrace "`\x7d`")
  declarators : variableDeclarators nonterminal = loop Listing.declarators.round

theorem Listing.placed : Listing.Placed where
  file := rfl
  body := rfl
  enumBody := rfl
  block _ := rfl
  switch := rfl
  resources := rfl
  array := rfl
  declarators := rfl

/-- What does not change while a text is parsed. -/
def Input.of (text : String) : Input := { source := text, endToken := (tokenize text).getLastD default }

/-- A text is parsed to its end, and no bound of the parser has a part in that. -/
structure EndsByItself (text : String) : Prop where
  /-- The tokens cover the text, and the end stands behind all others. -/
  covered : (tokenize text).flatMap (·.text.toList) = text.toList ∧
    ∃ tokens, tokenize text = tokens ++ [(Input.of text).endToken] ∧
      (Input.of text).endToken.kind = .eof ∧ ∀ token ∈ tokens, token.kind ≠ .eof
  /-- The parser does not fail, and no token is ahead when it is done. -/
  done : ∃ after, compilationUnit (.of text) (.start (tokenize text)) = (some (), after) ∧
    after.ahead = [] ∧ ∀ options, (parseSource text options).errors = after.errors
  placed : Listing.Placed
  /-- A round of a list that asks for another one has passed a token. -/
  rounds : ∀ (listing : Listing) (input : Input) (state after : State),
    listing.round input state = (some true, after) → after.ahead.length < state.ahead.length
  /-- Nothing is done behind the last round that a list may have. -/
  loops : ∀ (listing : Listing) (bottom : Parse Unit) (bound : Nat) (input : Input) (state : State),
    state.ahead.length < bound →
      loop listing.round input state = loopOver bottom bound listing.round input state
  /-- Nothing is done where constructs nest too deep. -/
  nesting : ∀ (construct : Nonterminal) (bottom : Nonterminal → Parse Unit) (bound : Nat)
    (input : Input) (state : State), 8 * (state.ahead.length + 1) ≤ bound →
      nonterminal construct input state = nonterminalOver bottom bound construct input state
  /-- Nothing is done where types nest too deep. -/
  types : ∀ (bottom : Parse Unit) (bound : Nat) (input : Input) (state : State),
    state.ahead.length < bound → typeRef input state = typeRefOver bottom bound input state
  /-- A scan that asks again has skipped a token. -/
  scans : ∀ (scan : Scan) (ahead behind : List Token), scan.round ahead = .again behind →
    behind.length < ahead.length
  /-- Nothing is done behind the last round that a scan may have. -/
  scanned : ∀ (scan : Scan) (bottom : List Token → Option (List Token)) (ahead : List Token)
    (bound bound' : Nat), ahead.length ≤ bound → ahead.length < bound' →
      scan.skip bound ahead = scan.skipOver bottom bound' ahead
  /-- The depth of parentheses does not fall below nothing. -/
  parentheses : ∀ ahead, kindAt ahead 0 = .lParen →
    afterMatchingChecked .lParen .rParen 0 ahead = .ok (afterParens ahead)
  /-- The depth of type arguments does not fall below nothing. -/
  typeArguments : ∀ ahead, kindAt ahead 0 = .less →
    skipTypeArgumentsChecked 0 ahead = .ok (skipTypeArguments 0 ahead)
  /-- The depth of braces does not fall below nothing. -/
  braces : ∀ resume forced ahead,
    skipToChecked resume forced 0 ahead = .ok (skipTo resume forced 0 ahead)
  /-- The tokens ahead stay the last ones of those that the grammar sees. -/
  advances : ∀ (construct : Nonterminal) (input : Input) (state : State),
    (nonterminal construct input state).2.ahead <:+ state.ahead
  /-- Every token that is looked at is found under its number. -/
  numbers : ∀ passed ahead, (tokenize text).filter Token.isSignificant = passed ++ ahead →
    ∀ n, ∃ token, numbered? (tokenize text) passed.length n = some token ∧
      token.kind = kindAt ahead n

theorem endToken_of {text : String} {tokens : List Token} {last : Token}
    (h : tokenize text = tokens ++ [last]) : (Input.of text).endToken = last := by
  simp [Input.of, h]

/-- The parser comes to the end of every text, and does not depend on its bounds for that. -/
theorem endsByItself (text : String) : EndsByItself text where
  covered := by
    obtain ⟨tokens, last, heq, hl, ht⟩ := tokenize_eq_append text
    rw [endToken_of heq]
    exact ⟨flatMap_text_tokenize text, tokens, heq, hl, ht⟩
  done := by
    have hs := succeeds_compilationUnit (.of text) (.start (tokenize text))
    obtain ⟨_, hv⟩ := Option.isSome_iff_exists.1 hs
    refine ⟨_, Prod.ext hv rfl, compilationUnit_reaches_end _ _ ?_, fun _ => rfl⟩
    intro token htoken
    have hsignificant := (List.mem_filter.1 htoken).2
    rintro hend
    simp [Token.isSignificant, hend] at hsignificant
  placed := Listing.placed
  rounds listing _ _ _ h := (progresses_round listing).progresses h
  loops listing bottom _ input _ h :=
    have := progresses_round listing
    loop_eq_over listing.round bottom input h
  nesting construct bottom _ input _ h := nonterminal_eq_over bottom construct input h
  types bottom _ input _ h := typeRef_eq_over bottom input h
  scans scan _ _ h := scan.length_round h
  scanned scan bottom _ _ _ h h' := scan.skip_eq_over bottom h h'
  parentheses _ h := afterMatchingChecked_eq (by decide) h
  typeArguments _ h := skipTypeArgumentsChecked_eq h
  braces resume forced ahead := skipToChecked_eq resume forced 0 ahead
  advances construct input state :=
    ((inferInstance : Keeps Advanced (nonterminal construct)).keeps input state).suffix
  numbers _ _ h n := numbered?_eq_some h n

end Parser

end JavaGraph
