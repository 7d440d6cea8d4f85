/-
Tokens tile their source text.

Blanks and tokens take turns in a text, up to the end of the input.  Every
token stands in the text where its position says, on the line that it names,
and nothing but blanks stands between two tokens.
-/

import ContractCompiler.Proofs.Scanning

namespace ContractCompiler

/-! ### Texts between byte offsets -/

theorem utf8Length_eq_zero {text : List Char}
    (empty : utf8Length text = 0) : text = [] := by
  cases text with
  | nil =>
      rfl
  | cons character rest =>
      have positive := character.utf8Size_pos
      rw [utf8Length_cons] at empty
      omega

theorem splitAtByte_eq_some_iff {text before behind : List Char}
    {offset : Nat} :
    splitAtByte text offset = some (before, behind) ↔
      text = before ++ behind ∧ utf8Length before = offset := by
  fun_induction splitAtByte text offset generalizing before behind with
  | case1 text =>
      constructor
      · intro split
        cases split
        exact ⟨rfl, rfl⟩
      · intro split
        have empty := utf8Length_eq_zero split.2
        subst empty
        rw [split.1, List.nil_append]
  | case2 offset =>
      constructor
      · intro split
        cases split
      · intro split
        have empty := (List.append_eq_nil_iff.mp split.1.symm).1
        subst empty
        cases split.2
  | case3 character rest offset fits inductionHypothesis =>
      constructor
      · intro split
        rcases Option.map_eq_some_iff.mp split with
          ⟨⟨inner, others⟩, found, same⟩
        cases same
        have deeper := inductionHypothesis.mp found
        rw [List.cons_append, ← deeper.1, utf8Length_cons, deeper.2]
        exact ⟨rfl, by omega⟩
      · intro split
        cases before with
        | nil =>
            cases split.2
        | cons first inner =>
            rw [List.cons_append, List.cons.injEq, utf8Length_cons] at split
            rcases split with ⟨⟨rfl, rfl⟩, length⟩
            apply Option.map_eq_some_iff.mpr
            refine ⟨(inner, behind), inductionHypothesis.mpr ⟨rfl, ?_⟩, rfl⟩
            omega
  | case4 character rest offset splits =>
      constructor
      · intro split
        cases split
      · intro split
        cases before with
        | nil =>
            cases split.2
        | cons first inner =>
            rw [List.cons_append, List.cons.injEq, utf8Length_cons] at split
            rcases split with ⟨⟨rfl, rfl⟩, length⟩
            omega

/-- The text between two byte offsets.  There is none if one of them lies
inside a character or past the end, or if they are in the wrong order. -/
def textBetween (text : List Char) (start stop : Nat) :
    Option (List Char) :=
  (splitAtByte text stop).bind fun cut =>
    (splitAtByte cut.1 start).map Prod.snd

theorem textBetween_append (before middle behind : List Char) :
    textBetween (before ++ (middle ++ behind)) (utf8Length before)
      (utf8Length (before ++ middle)) = some middle := by
  have outer : splitAtByte (before ++ (middle ++ behind))
      (utf8Length (before ++ middle)) = some (before ++ middle, behind) := by
    rw [splitAtByte_eq_some_iff, List.append_assoc]
    exact ⟨rfl, rfl⟩
  have inner : splitAtByte (before ++ middle) (utf8Length before) =
      some (before, middle) :=
    splitAtByte_eq_some_iff.mpr ⟨rfl, rfl⟩
  rw [textBetween, outer, Option.bind_some, inner, Option.map_some]

theorem utf8Length_toList (text : String) :
    utf8Length text.toList = text.utf8ByteSize := by
  rw [← length_utf8Bytes, ← String.size_toByteArray]
  conv_rhs => rw [← String.ofList_toList (s := text),
    String.toByteArray_ofList]
  simp [utf8Bytes, List.utf8Encode]

/-! ### Blanks and tokens in turn -/

/-- Tokens tile a text that stands behind another one.  Each follows some
blanks, is spelled there, and has the place of its first character; the last
one is the end of the input. -/
inductive Tiles : List Char → List Char → List Token → Prop where
  | ending {before blanks : List Char}
      (blank : ∀ character ∈ blanks, isBlank character = true) :
      Tiles before blanks
        [Lexeme.token ⟨.endOfInput, []⟩ (Place.start.past (before ++ blanks))]
  | token {before blanks behind : List Char} {lexeme : Lexeme}
      {tokens : List Token}
      (blank : ∀ character ∈ blanks, isBlank character = true)
      (proper : lexeme.kind ≠ .endOfInput) (spelled : lexeme.text ≠ [])
      (others : Tiles (before ++ blanks ++ lexeme.text) behind tokens) :
      Tiles before (blanks ++ (lexeme.text ++ behind))
        (lexeme.token (Place.start.past (before ++ blanks)) :: tokens)

private theorem isBlank_of_mem_takeWhile (text : List Char) :
    ∀ character ∈ text.takeWhile isBlank, isBlank character = true :=
  List.all_eq_true.mp List.all_takeWhile

section

variable [IdentifierCharacters]

theorem tokensFrom_tiles (place : Place) (text : List Char) :
    ∀ before, place = Place.start.past before →
      Tiles before text (tokensFrom place text) := by
  fun_induction tokensFrom place text with
  | case1 place text blanks here used =>
      intro before placed
      have ends := @Tiles.ending before _ (isBlank_of_mem_takeWhile text)
      rw [Place.past_append, ← placed] at ends
      have whole : blanks = text := by
        have pieces := List.takeWhile_append_dropWhile (p := isBlank)
          (l := text)
        rw [used, List.append_nil] at pieces
        exact pieces
      rw [← whole]
      exact ends
  | case2 place text blanks here first rest found lexeme
      inductionHypothesis =>
      intro before placed
      have located : here = Place.start.past (before ++ blanks) := by
        rw [Place.past_append, ← placed]
      have spelled : lexeme.text ≠ [] := by
        rcases Lexeme.read_isPrefix first rest with ⟨piece, same, _⟩
        rw [same]
        exact List.cons_ne_nil _ _
      have whole : text =
          blanks ++ (lexeme.text ++ lexeme.behind (first :: rest)) := by
        rw [Lexeme.text_append_behind, ← found]
        exact List.takeWhile_append_dropWhile.symm
      have others := inductionHypothesis (before ++ blanks ++ lexeme.text)
        (by rw [Place.past_append, located])
      rw [located]
      rw [located] at others
      conv => arg 2; rw [whole]
      exact Tiles.token (isBlank_of_mem_takeWhile text)
        (Lexeme.read_ne_endOfInput first rest) spelled others

end

/-! ### Where the tokens stand -/

def Token.stop (token : Token) : Nat :=
  token.position + token.literal.utf8ByteSize

def stopBehind (start : Nat) : List Token → Nat
  | [] => start
  | token :: rest => stopBehind token.stop rest

private theorem Lexeme.stop_token (lexeme : Lexeme) (before : List Char) :
    (lexeme.token (Place.start.past before)).stop =
      utf8Length (before ++ lexeme.text) := by
  rw [Token.stop, ← utf8Length_toList, utf8Length_append, token,
    String.toList_ofList, Place.past, Place.start, Nat.zero_add]

/-- Where one token of a tiling stands: behind the tokens before it, and
behind some blanks. -/
theorem Tiles.split {before text : List Char} {tokens earlier : List Token}
    {token : Token} {later : List Token} (tiles : Tiles before text tokens)
    (split : tokens = earlier ++ token :: later) :
    ∃ passed blanks behind,
      text = passed ++ (blanks ++ (token.literal.toList ++ behind)) ∧
      (∀ character ∈ blanks, isBlank character = true) ∧
      utf8Length (before ++ passed) =
        stopBehind (utf8Length before) earlier ∧
      token.position = utf8Length (before ++ passed ++ blanks) ∧
      token.line = 1 + (before ++ passed ++ blanks).count '\n' := by
  induction tiles generalizing earlier with
  | @ending before blanks blank =>
      cases earlier with
      | nil =>
          cases split
          refine ⟨[], blanks, [], ?_, blank, ?_, ?_, ?_⟩ <;>
            simp [stopBehind, Lexeme.token, Place.past, Place.start]
      | cons other rest =>
          rw [List.cons_append, List.cons.injEq] at split
          cases rest <;> cases split.2
  | @token before blanks behind lexeme tokens blank proper spelled others
      inductionHypothesis =>
      cases earlier with
      | nil =>
          cases split
          refine ⟨[], blanks, behind, ?_, blank, ?_, ?_, ?_⟩ <;>
            simp [stopBehind, Lexeme.token, Place.past, Place.start]
      | cons other rest =>
          rw [List.cons_append, List.cons.injEq] at split
          rcases split with ⟨same, split⟩
          rcases inductionHypothesis split with
            ⟨passed, gap, rest, whole, blankToo, stops, position, line⟩
          have reassociated : before ++ (blanks ++ (lexeme.text ++ passed)) =
              before ++ blanks ++ lexeme.text ++ passed := by simp
          refine ⟨blanks ++ (lexeme.text ++ passed), gap, rest, ?_, blankToo,
            ?_, ?_, ?_⟩
          · rw [whole]
            simp
          · rw [stopBehind, ← same, Lexeme.stop_token, reassociated]
            exact stops
          · rw [reassociated]
            exact position
          · rw [reassociated]
            exact line

theorem Tiles.ended {before text : List Char} {tokens : List Token}
    (tiles : Tiles before text tokens) :
    ∃ proper line,
      tokens = proper ++
        [Token.endOfInput (utf8Length (before ++ text)) line] ∧
      ∀ token ∈ proper, token.isEnd = false ∧ token.literal ≠ "" := by
  induction tiles with
  | @ending before blanks blank =>
      refine ⟨[], 1 + (before ++ blanks).count '\n', ?_, by simp⟩
      simp [Lexeme.token, Token.endOfInput, Place.past, Place.start]
  | @token before blanks behind lexeme tokens blank proper spelled others
      inductionHypothesis =>
      rcases inductionHypothesis with ⟨inner, line, same, known⟩
      refine ⟨lexeme.token (Place.start.past (before ++ blanks)) :: inner,
        line, ?_, ?_⟩
      · rw [same, List.cons_append]
        simp
      · intro token member
        rcases List.mem_cons.mp member with rfl | member
        · constructor
          · simpa [Token.isEnd, Lexeme.token] using proper
          · simpa [Lexeme.token] using spelled
        · exact known token member

private theorem Tiles.rebuilt {before text : List Char} {tokens : List Token}
    (tiles : Tiles before text tokens) :
    ∃ pieces : List (List Char × Token),
      pieces.map Prod.snd = tokens ∧
      (∀ piece ∈ pieces, ∀ character ∈ piece.1,
        isBlank character = true) ∧
      (pieces.flatMap fun piece => piece.1 ++ piece.2.literal.toList) =
        text := by
  induction tiles with
  | @ending before blanks blank =>
      refine ⟨[(blanks, _)], rfl, ?_, ?_⟩
      · simpa using blank
      · simp
  | @token before blanks behind lexeme tokens blank proper spelled others
      inductionHypothesis =>
      rcases inductionHypothesis with ⟨pieces, same, known, whole⟩
      refine ⟨(blanks, _) :: pieces, by rw [List.map_cons, same], ?_, ?_⟩
      · intro piece member
        rcases List.mem_cons.mp member with rfl | member
        · exact blank
        · exact known piece member
      · rw [List.flatMap_cons, whole]
        simp [Lexeme.token]

structure Tiling (source : String) (tokens : List Token) : Prop where
  ended : ∃ proper line,
    tokens = proper ++ [Token.endOfInput source.utf8ByteSize line] ∧
    ∀ token ∈ proper, token.isEnd = false ∧ token.literal ≠ ""
  spelled : ∀ token ∈ tokens,
    textBetween source.toList token.position token.stop =
      some token.literal.toList
  apart : ∀ earlier token later, tokens = earlier ++ token :: later →
    stopBehind 0 earlier ≤ token.position ∧
    ∃ gap, textBetween source.toList (stopBehind 0 earlier)
        token.position = some gap ∧
      ∀ character ∈ gap, isBlank character = true
  lines : ∀ token ∈ tokens, ∃ before,
    textBetween source.toList 0 token.position = some before ∧
    token.line = 1 + before.count '\n'
  rebuilt : ∃ pieces : List (List Char × Token),
    pieces.map Prod.snd = tokens ∧
    (∀ piece ∈ pieces, ∀ character ∈ piece.1,
      isBlank character = true) ∧
    (pieces.flatMap fun piece => piece.1 ++ piece.2.literal.toList) =
      source.toList

variable [IdentifierCharacters]

/-- The tokens of a source text tile it, and scanning the text step by step
sends out just these tokens. -/
theorem tokenize_tiles (source : String) :
    Scanner.tokens (fun _ => true) source = tokenize source ∧
      Tiling source (tokenize source) := by
  have tiles : Tiles [] source.toList (tokenize source) :=
    tokensFrom_tiles .start source.toList [] (Place.past_nil _).symm
  have stands : ∀ earlier token later,
      tokenize source = earlier ++ token :: later →
      ∃ passed blanks behind,
        source.toList =
          passed ++ (blanks ++ (token.literal.toList ++ behind)) ∧
        (∀ character ∈ blanks, isBlank character = true) ∧
        utf8Length passed = stopBehind 0 earlier ∧
        token.position = utf8Length (passed ++ blanks) ∧
        token.line = 1 + (passed ++ blanks).count '\n' :=
    fun earlier token later split => tiles.split split
  refine ⟨Scanner.tokens_all source, ?_, ?_, ?_, ?_, tiles.rebuilt⟩
  · rcases tiles.ended with ⟨proper, line, same, known⟩
    rw [List.nil_append, utf8Length_toList] at same
    exact ⟨proper, line, same, known⟩
  · intro token member
    rcases List.append_of_mem member with ⟨earlier, later, split⟩
    rcases stands earlier token later split with
      ⟨passed, blanks, behind, whole, _, _, position, _⟩
    rw [Token.stop, ← utf8Length_toList, position, ← utf8Length_append,
      whole, ← List.append_assoc]
    exact textBetween_append _ _ _
  · intro earlier token later split
    rcases stands earlier token later split with
      ⟨passed, blanks, behind, whole, blank, stops, position, _⟩
    rw [← stops, position, whole]
    refine ⟨?_, blanks, textBetween_append _ _ _, blank⟩
    rw [utf8Length_append]
    exact Nat.le_add_right _ _
  · intro token member
    rcases List.append_of_mem member with ⟨earlier, later, split⟩
    rcases stands earlier token later split with
      ⟨passed, blanks, behind, whole, _, _, position, line⟩
    refine ⟨passed ++ blanks, ?_, line⟩
    rw [position, whole, ← List.append_assoc]
    exact textBetween_append [] _ _

end ContractCompiler
