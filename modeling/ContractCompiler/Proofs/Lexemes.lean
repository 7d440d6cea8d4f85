/-
Lexemes and what stands behind them.

What is read at the front of a text is a piece of that text.  The same piece
is read in front of any other text, as long as the first character of that
text does not go on with it.  Blanks and most marks go on with nothing.  Only
a string that is never closed goes on with everything, and nothing stands
behind it.
-/

import Mathlib.Data.List.TakeWhile
import ContractCompiler.Proofs.Naming
import ContractCompiler.Token.Tokenize

namespace ContractCompiler

/-! ### Pieces of a text -/

theorem takeWhile_append_of_head {α : Type} {kept : α → Bool}
    (items : List α) {behind : List α}
    (ends : ∀ item ∈ behind.head?, kept item = false) :
    (items ++ behind).takeWhile kept = items.takeWhile kept := by
  induction items with
  | nil =>
      cases behind with
      | nil =>
          rfl
      | cons item rest =>
          have stops := ends item rfl
          simp [stops]
  | cons item rest inductionHypothesis =>
      rw [List.cons_append, List.takeWhile_cons, List.takeWhile_cons,
        inductionHypothesis]

theorem takeWhile_eq_of_head {α : Type} {kept : α → Bool}
    {piece behind : List α} (inside : ∀ item ∈ piece, kept item = true)
    (ends : ∀ item ∈ behind.head?, kept item = false) :
    (piece ++ behind).takeWhile kept = piece := by
  rw [takeWhile_append_of_head piece ends]
  exact List.takeWhile_eq_self_iff.mpr inside

private theorem takeWhile_congr {α : Type} {kept other : α → Bool}
    {items : List α} (same : ∀ item ∈ items, kept item = other item) :
    items.takeWhile kept = items.takeWhile other := by
  induction items with
  | nil =>
      rfl
  | cons item rest inductionHypothesis =>
      rw [List.forall_mem_cons] at same
      rw [List.takeWhile_cons, List.takeWhile_cons, same.1,
        inductionHypothesis same.2]

namespace Lexeme

theorem stringTail_isPrefix {rest tail : List Char}
    (closed : stringTail rest = some tail) : tail <+: rest := by
  fun_induction stringTail rest generalizing tail with
  | case1 =>
      cases closed
  | case2 rest =>
      cases closed
      exact ⟨rest, rfl⟩
  | case3 =>
      cases closed
  | case4 escaped rest inductionHypothesis =>
      rcases Option.map_eq_some_iff.mp closed with ⟨inner, found, rfl⟩
      rcases inductionHypothesis found with ⟨behind, rfl⟩
      exact ⟨behind, rfl⟩
  | case5 character rest noQuote noEnd noEscape inductionHypothesis =>
      rcases Option.map_eq_some_iff.mp closed with ⟨inner, found, rfl⟩
      rcases inductionHypothesis found with ⟨behind, rfl⟩
      exact ⟨behind, rfl⟩

/-- A string is closed by its own quote, whatever stands behind it. -/
theorem stringTail_append {rest tail : List Char}
    (closed : stringTail rest = some tail) (behind : List Char) :
    stringTail (tail ++ behind) = some tail := by
  fun_induction stringTail rest generalizing tail with
  | case1 =>
      cases closed
  | case2 rest =>
      cases closed
      rw [List.cons_append, stringTail]
  | case3 =>
      cases closed
  | case4 escaped rest inductionHypothesis =>
      rcases Option.map_eq_some_iff.mp closed with ⟨inner, found, rfl⟩
      rw [List.cons_append, List.cons_append, stringTail,
        inductionHypothesis found, Option.map_some]
  | case5 character rest noQuote noEnd noEscape inductionHypothesis =>
      rcases Option.map_eq_some_iff.mp closed with ⟨inner, found, rfl⟩
      have plain : character ≠ '\\' := by
        intro backslash
        cases rest with
        | nil => exact noEnd backslash rfl
        | cons escaped rest => exact noEscape escaped rest backslash rfl
      rw [List.cons_append, stringTail, inductionHypothesis found,
        Option.map_some]
      · exact noQuote
      · intro backslash
        exact absurd backslash plain
      · intro escaped rest backslash
        exact absurd backslash plain

end Lexeme

private theorem TokenKind.keyword_ne_endOfInput (text : String) :
    (keyword? text).getD .identifier ≠ .endOfInput := by
  cases found : keyword? text with
  | none =>
      decide
  | some kind =>
      have member : kind ∈ keywords := List.mem_of_find?_eq_some found
      revert member
      cases kind <;> decide

def Token.lexeme (token : Token) : Lexeme :=
  ⟨token.kind, token.literal.toList⟩

@[simp]
theorem Lexeme.lexeme_token (lexeme : Lexeme) (place : Place) :
    (lexeme.token place).lexeme = lexeme := by
  simp [Token.lexeme, token]

/-! ### Characters that end a lexeme -/

variable [IdentifierCharacters]

def separates (character : Char) : Bool :=
  !isIdentifierPart character && character != '=' && character != '&' &&
    character != '|'

theorem separates_of_isBlank {character : Char}
    (blank : isBlank character = true) : separates character = true := by
  have other : (character != '=' && character != '&' && character != '|') =
      true :=
    CodePoints.holds_of_checked (fun character =>
      character != '=' && character != '&' && character != '|')
      (by decide) blank
  rw [separates, not_isIdentifierPart_of_isBlank blank, Bool.not_false,
    Bool.true_and]
  exact other

theorem separates_of_ascii {character : Char}
    (ascii : character.toNat < 0x80) :
    separates character = @separates asciiIdentifiers character := by
  rw [separates, isIdentifierPart_of_ascii ascii]
  rfl

private theorem not_isIdentifierPart_of_separates {character : Char}
    (ends : separates character = true) :
    isIdentifierPart character = false := by
  simp only [separates, Bool.and_eq_true, Bool.not_eq_true'] at ends
  exact ends.1.1.1

/-- A digit stands inside words, but no word starts with one. -/
theorem digit_within_word {character : Char}
    (digit : isDigit character = true) :
    isIdentifierPart character = true ∧
      isIdentifierStart character = false ∧ isBlank character = false ∧
      character ≠ '"' := by
  have ascii : character.toNat < 0x80 := by
    simp only [isDigit, Bool.and_eq_true, decide_eq_true_eq, Char.le_def,
      UInt32.le_iff_toNat_le] at digit
    have high : character.toNat ≤ 0x39 := digit.2
    omega
  rw [isIdentifierPart_of_ascii ascii, isIdentifierStart_of_ascii ascii]
  have checked := holds_of_ascii
    (fun character => !isDigit character ||
      (@isIdentifierPart asciiIdentifiers character &&
        !@isIdentifierStart asciiIdentifiers character &&
        !isBlank character && character != '"'))
    (by decide +kernel) character ascii
  simpa [digit, and_assoc] using checked

/-- What starts a word starts nothing else. -/
theorem start_of_word {character : Char}
    (starts : isIdentifierStart character = true) :
    isBlank character = false ∧ isDigit character = false ∧
      character ≠ '"' := by
  refine ⟨?_, ?_, ?_⟩
  · by_contra blank
    have ends := not_isIdentifierPart_of_separates
      (separates_of_isBlank (Bool.not_eq_false _ ▸ blank))
    rw [isIdentifierPart_of_start starts] at ends
    cases ends
  · by_contra digit
    have inside := (digit_within_word (Bool.not_eq_false _ ▸ digit)).2.1
    rw [starts] at inside
    cases inside
  · rintro rfl
    have quote : isIdentifierStart '"' = false :=
      isIdentifierStart_of_ascii (by decide)
    rw [starts] at quote
    cases quote

def Apart (text : List Char) : Prop :=
  ∀ character ∈ text.head?, separates character = true

theorem Apart.nil : Apart [] := by
  intro character member
  cases member

theorem Apart.cons {character : Char} {text : List Char}
    (ends : separates character = true) : Apart (character :: text) := by
  intro other member
  cases member
  exact ends

theorem Apart.not_part {text : List Char} (apart : Apart text) :
    ∀ character ∈ text.head?, isIdentifierPart character = false :=
  fun character member =>
    not_isIdentifierPart_of_separates (apart character member)

theorem Apart.not_digit {text : List Char} (apart : Apart text) :
    ∀ character ∈ text.head?, isDigit character = false := by
  intro character member
  by_contra digit
  have inside := (digit_within_word (Bool.not_eq_false _ ▸ digit)).1
  rw [apart.not_part character member] at inside
  cases inside

namespace Lexeme

/-- A lexeme is a piece at the front of the text that it is read from. -/
theorem read_isPrefix (first : Char) (rest : List Char) :
    ∃ piece, (read first rest).text = first :: piece ∧ piece <+: rest := by
  unfold read
  split
  next digit =>
    rw [number_of_digit digit]
    exact ⟨_, rfl, List.takeWhile_prefix _⟩
  · split
    next =>
      rw [quoted]
      split
      next tail closed => exact ⟨tail, rfl, stringTail_isPrefix closed⟩
      next => exact ⟨rest, rfl, List.prefix_rfl⟩
    next =>
      split
      · exact ⟨_, rfl, List.takeWhile_prefix _⟩
      · cases rest with
        | nil =>
            exact ⟨[], rfl, List.prefix_rfl⟩
        | cons second rest =>
            rw [operator]
            split
            · exact ⟨[second], rfl, rest, rfl⟩
            · exact ⟨[], rfl, List.nil_prefix⟩

/-- What is read from a text in ASCII does not hang on the identifiers
outside of ASCII. -/
theorem read_of_ascii {first : Char} {rest : List Char}
    (ascii : ∀ character ∈ first :: rest, character.toNat < 0x80) :
    read first rest = @read asciiIdentifiers first rest := by
  have parts : rest.takeWhile isIdentifierPart =
      rest.takeWhile (@isIdentifierPart asciiIdentifiers) := by
    rw [List.forall_mem_cons] at ascii
    exact takeWhile_congr fun character member =>
      isIdentifierPart_of_ascii (ascii.2 character member)
  have words : word (first :: rest) =
      @word asciiIdentifiers (first :: rest) := by
    rw [word, parts]
    rfl
  rw [read, isIdentifierStart_of_ascii (ascii first List.mem_cons_self),
    words]
  rfl

/-- Nothing is lost between a lexeme and what follows it. -/
theorem text_append_behind (first : Char) (rest : List Char) :
    (read first rest).text ++
      (read first rest).behind (first :: rest) = first :: rest := by
  rcases read_isPrefix first rest with ⟨piece, spelled, isPrefix⟩
  rw [behind, spelled, List.length_cons, List.drop_succ_cons,
    List.cons_append, List.prefix_iff_eq_append.mp isPrefix]

/-! ### Lexemes in front of a text -/

/-- A lexeme is what is read where its spelling stands in front of a text. -/
def Precedes (lexeme : Lexeme) (behind : List Char) : Prop :=
  ∃ first piece, lexeme.text = first :: piece ∧ isBlank first = false ∧
    read first (piece ++ behind) = lexeme

theorem numeral_precedes {first : Char} {piece behind : List Char}
    (digit : isDigit first = true)
    (digits : ∀ character ∈ piece, isDigit character = true)
    (ends : ∀ character ∈ behind.head?, isDigit character = false) :
    Precedes ⟨.integer, first :: piece⟩ behind := by
  refine ⟨first, piece, rfl, (digit_within_word digit).2.2.1, ?_⟩
  rw [read, if_pos digit, number_of_digit digit,
    takeWhile_eq_of_head digits ends]

theorem word_precedes {first : Char} {behind : List Char}
    (starts : isIdentifierStart first = true) (rest : List Char)
    (ends : ∀ character ∈ behind.head?,
      isIdentifierPart character = false) :
    (word (first :: rest)).Precedes behind := by
  rcases start_of_word starts with ⟨shown, noDigit, noQuote⟩
  refine ⟨first, rest.takeWhile isIdentifierPart, rfl, shown, ?_⟩
  rw [read, noDigit, if_neg Bool.false_ne_true,
    if_neg (by simpa using noQuote), if_pos starts, word,
    takeWhile_eq_of_head (List.all_eq_true.mp List.all_takeWhile) ends]
  rfl

theorem quoted_precedes {tail : List Char}
    (closed : ∀ behind, stringTail (tail ++ behind) = some tail)
    (behind : List Char) : Precedes ⟨.text, '"' :: tail⟩ behind := by
  refine ⟨'"', tail, rfl, by decide, ?_⟩
  rw [read, if_neg (by decide), if_pos (by decide), quoted, closed behind]

/-- A string that is never closed runs to the end of the text. -/
theorem unclosed_precedes {rest : List Char}
    (unclosed : stringTail rest = none) :
    Precedes ⟨.illegal, '"' :: rest⟩ [] := by
  refine ⟨'"', rest, rfl, by decide, ?_⟩
  rw [List.append_nil, read, if_neg (by decide), if_pos (by decide), quoted,
    unclosed]

def isMark (character : Char) : Bool :=
  !isBlank character && !isDigit character && character != '"' &&
    !isIdentifierStart character

theorem isMark_of_ascii {character : Char}
    (ascii : character.toNat < 0x80) :
    isMark character = @isMark asciiIdentifiers character := by
  rw [isMark, isIdentifierStart_of_ascii ascii]
  rfl

private theorem read_of_isMark {first : Char} (mark : isMark first = true)
    (rest : List Char) :
    isBlank first = false ∧ read first rest = operator first rest := by
  simp only [isMark, Bool.and_eq_true, Bool.not_eq_true', bne_iff_ne]
    at mark
  rcases mark with ⟨⟨⟨shown, noDigit⟩, noQuote⟩, noWord⟩
  refine ⟨shown, ?_⟩
  simp [read, noDigit, noQuote, noWord]

theorem single_precedes {first : Char} {behind : List Char}
    (mark : isMark first = true)
    (ends : ∀ character ∈ behind.head?,
      pairKind? first character = none) :
    Precedes ⟨singleKind first, [first]⟩ behind := by
  rcases read_of_isMark mark behind with ⟨shown, same⟩
  refine ⟨first, [], rfl, shown, ?_⟩
  rw [List.nil_append, same]
  cases behind with
  | nil =>
      rfl
  | cons second rest =>
      rw [operator, ends second rfl]

private theorem pair_precedes {first second : Char} {kind : TokenKind}
    (mark : isMark first = true) (pair : pairKind? first second = some kind)
    (behind : List Char) :
    Precedes ⟨kind, [first, second]⟩ behind := by
  rcases read_of_isMark mark (second :: behind) with ⟨shown, same⟩
  refine ⟨first, [second], rfl, shown, ?_⟩
  rw [List.singleton_append, same, operator, pair]

theorem pairKind_of_separates (first : Char) {second : Char}
    (ends : separates second = true) : pairKind? first second = none := by
  simp only [separates, Bool.and_eq_true, bne_iff_ne] at ends
  rcases ends with ⟨⟨⟨_, noEqual⟩, noAnd⟩, noOr⟩
  unfold pairKind?
  split <;> first | rfl | contradiction

/-- What is read somewhere is read again in front of any text that goes on
with nothing, unless it runs to the end of the text. -/
theorem read_precedes {first : Char} (shown : isBlank first = false)
    (rest : List Char) :
    (∀ behind, Apart behind → (read first rest).Precedes behind) ∨
      ((read first rest).behind (first :: rest) = [] ∧
        (read first rest).Precedes []) := by
  by_cases digit : isDigit first = true
  · refine Or.inl ?_
    intro behind apart
    rw [read, if_pos digit, number_of_digit digit]
    exact numeral_precedes digit
      (List.all_eq_true.mp List.all_takeWhile) apart.not_digit
  by_cases quote : first = '"'
  · subst quote
    have same : read '"' rest = quoted ('"' :: rest) := by
      rw [read, if_neg (by decide), if_pos (by decide)]
    rw [same]
    cases closed : stringTail rest with
    | none =>
        refine Or.inr ?_
        rw [quoted, closed]
        refine ⟨?_, unclosed_precedes closed⟩
        simp [behind]
    | some tail =>
        refine Or.inl ?_
        intro behind _
        rw [quoted, closed]
        exact quoted_precedes (stringTail_append closed) behind
  have noQuote : ¬ (first == '"') = true := by simpa using quote
  refine Or.inl ?_
  intro behind apart
  by_cases starts : isIdentifierStart first = true
  · rw [read, if_neg digit, if_neg noQuote, if_pos starts]
    exact word_precedes starts rest apart.not_part
  · have mark : isMark first = true := by
      simp [isMark, shown, digit, quote, starts]
    have single : Precedes ⟨singleKind first, [first]⟩ behind :=
      single_precedes mark fun character member =>
        pairKind_of_separates first (apart character member)
    rw [(read_of_isMark mark rest).2]
    cases rest with
    | nil =>
        exact single
    | cons second rest =>
        cases pair : pairKind? first second with
        | none =>
            rw [operator, pair]
            exact single
        | some kind =>
            rw [operator, pair]
            exact pair_precedes mark pair behind

end Lexeme

/-! ### No lexeme is the end of the input -/

namespace Lexeme

theorem read_ne_endOfInput (first : Char) (rest : List Char) :
    (read first rest).kind ≠ .endOfInput := by
  unfold read
  split
  · exact fun same => TokenKind.noConfusion same
  · split
    · rw [quoted]
      split <;> exact fun same => TokenKind.noConfusion same
    · split
      · exact TokenKind.keyword_ne_endOfInput _
      · exact operator_ne (by decide) first rest

end Lexeme

/-! ### All lexemes of a text -/

def lexemesOf (text : List Char) : List Lexeme :=
  match _ : text.dropWhile isBlank with
  | [] => []
  | first :: rest =>
      Lexeme.read first rest ::
        lexemesOf ((Lexeme.read first rest).behind (first :: rest))
termination_by text.length
decreasing_by exact Lexeme.length_behind_lt (by assumption)

private theorem lexemesOf_of_used {text : List Char}
    (used : text.dropWhile isBlank = []) : lexemesOf text = [] := by
  rw [lexemesOf]
  split
  · rfl
  next first rest found =>
    rw [used] at found
    cases found

theorem lexemesOf_of_found {text : List Char} {first : Char}
    {rest : List Char} (found : text.dropWhile isBlank = first :: rest) :
    lexemesOf text =
      Lexeme.read first rest ::
        lexemesOf ((Lexeme.read first rest).behind (first :: rest)) := by
  rw [lexemesOf]
  split
  next used =>
    rw [used] at found
    cases found
  next other others same =>
    rw [found] at same
    cases same
    rfl

theorem lexemesOf_nil : lexemesOf [] = [] :=
  lexemesOf_of_used rfl

theorem tokensFrom_of_used {place : Place} {text : List Char}
    (used : text.dropWhile isBlank = []) :
    tokensFrom place text =
      [Token.endOfInput (place.past (text.takeWhile isBlank)).position
        (place.past (text.takeWhile isBlank)).line] := by
  rw [tokensFrom]
  split
  · rfl
  · next first rest found =>
      rw [used] at found
      cases found

theorem tokensFrom_of_found {place : Place} {text : List Char}
    {first : Char} {rest : List Char}
    (found : text.dropWhile isBlank = first :: rest) :
    tokensFrom place text =
      (Lexeme.read first rest).token
          (place.past (text.takeWhile isBlank)) ::
        tokensFrom ((place.past (text.takeWhile isBlank)).past
            (Lexeme.read first rest).text)
          ((Lexeme.read first rest).behind (first :: rest)) := by
  rw [tokensFrom]
  split
  · next used =>
      rw [found] at used
      cases used
  · next head tail same =>
      rw [found] at same
      cases same
      rfl

/-- The tokens of a text are its lexemes, wherever the text starts. -/
theorem lexemes_tokensFrom (place : Place) (text : List Char) :
    (tokensFrom place text).map Token.lexeme =
      lexemesOf text ++ [⟨.endOfInput, []⟩] := by
  fun_induction tokensFrom place text with
  | case1 place text blanks here used =>
      rw [lexemesOf_of_used used]
      rfl
  | case2 place text blanks here first rest found lexeme
      inductionHypothesis =>
      rw [lexemesOf_of_found found, List.map_cons, inductionHypothesis,
        Lexeme.lexeme_token]
      rfl

theorem proper_of_mem_lexemesOf {text : List Char} {lexeme : Lexeme}
    (member : lexeme ∈ lexemesOf text) : lexeme.kind ≠ .endOfInput := by
  fun_induction lexemesOf text with
  | case1 text used =>
      cases member
  | case2 text first rest found inductionHypothesis =>
      rcases List.mem_cons.mp member with rfl | member
      · exact Lexeme.read_ne_endOfInput first rest
      · exact inductionHypothesis member

theorem lexemesOf_blanks {blanks : List Char}
    (blank : ∀ character ∈ blanks, isBlank character = true)
    (text : List Char) : lexemesOf (blanks ++ text) = lexemesOf text := by
  have skipped : (blanks ++ text).dropWhile isBlank =
      text.dropWhile isBlank := List.dropWhile_append_of_pos blank
  cases found : text.dropWhile isBlank with
  | nil =>
      rw [lexemesOf_of_used found, lexemesOf_of_used (skipped.trans found)]
  | cons first rest =>
      rw [lexemesOf_of_found found, lexemesOf_of_found (skipped.trans found)]

/-- A lexeme that is read in front of a text is the first of the whole. -/
theorem Lexeme.Precedes.lexemesOf_append {lexeme : Lexeme}
    {behind : List Char} (precedes : lexeme.Precedes behind) :
    lexemesOf (lexeme.text ++ behind) = lexeme :: lexemesOf behind := by
  rcases precedes with ⟨first, piece, spelled, shown, same⟩
  have found : (lexeme.text ++ behind).dropWhile isBlank =
      first :: (piece ++ behind) := by
    rw [spelled, List.cons_append,
      List.dropWhile_cons_of_neg (by simp [shown])]
  have rest : lexeme.behind (first :: (piece ++ behind)) = behind := by
    rw [Lexeme.behind, spelled, List.length_cons, List.drop_succ_cons,
      List.drop_left]
  rw [lexemesOf_of_found found, same, rest]

end ContractCompiler
