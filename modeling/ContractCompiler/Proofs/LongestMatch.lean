/-
Tokens are the longest lexemes.

A lexeme is legal when its characters follow the rule of its kind.  The first
character settles which rule that can be, so what is read at the front of a
text is compared with lexemes of one rule only.  No legal lexeme at the front
of a text is longer than the one that is read there, and where an illegal one
is read there is none.
-/

import ContractCompiler.Proofs.Tiling
import ContractCompiler.Text.Identifier

namespace ContractCompiler

/-! ### Legal lexemes -/

def TokenKind.marks : List TokenKind :=
  [assign, plus, minus, bang, star, slash, percent, less, greater, equal,
   notEqual, lessEqual, greaterEqual, logicalAnd, logicalOr, comma,
   leftParen, rightParen, leftBrace, rightBrace]

namespace Lexeme

/-- What may stand between two quotes: characters other than quotes and
backslashes, and backslashes with any character behind them. -/
inductive Quotable : List Char → Prop where
  | nil : Quotable []
  | plain {character : Char} {rest : List Char} (noQuote : character ≠ '"')
      (noEscape : character ≠ '\\') (others : Quotable rest) :
      Quotable (character :: rest)
  | escaped {character : Char} {rest : List Char} (others : Quotable rest) :
      Quotable ('\\' :: character :: rest)

def markKind? : List Char → Option TokenKind
  | [first] => some (singleKind first)
  | [first, second] => pairKind? first second
  | _ => none

private theorem single_listed (first : Char) :
    singleKind first = .illegal ∨ (singleKind first ∈ TokenKind.marks ∧
      (singleKind first).name.toList = [first]) := by
  unfold singleKind
  split <;> first | exact .inr ⟨by decide, by decide⟩ | exact .inl rfl

private theorem pair_listed {first second : Char} {kind : TokenKind}
    (found : pairKind? first second = some kind) :
    kind ∈ TokenKind.marks ∧ kind.name.toList = [first, second] := by
  unfold pairKind? at found
  split at found <;> cases found <;> exact ⟨by decide, by decide⟩

/-- A string is closed by the first quote that is not escaped. -/
theorem stringTail_eq_some_iff {rest tail : List Char} :
    stringTail rest = some tail ↔
      tail <+: rest ∧ ∃ inner, Quotable inner ∧ tail = inner ++ ['"'] := by
  constructor
  · intro closed
    refine ⟨stringTail_isPrefix closed, ?_⟩
    fun_induction stringTail rest generalizing tail with
    | case1 =>
        cases closed
    | case2 rest =>
        cases closed
        exact ⟨[], .nil, rfl⟩
    | case3 =>
        cases closed
    | case4 escaped rest inductionHypothesis =>
        rcases Option.map_eq_some_iff.mp closed with ⟨tail, found, rfl⟩
        rcases inductionHypothesis found with ⟨inner, quotable, rfl⟩
        exact ⟨_, .escaped quotable, rfl⟩
    | case5 character rest noQuote noEnd noEscape inductionHypothesis =>
        rcases Option.map_eq_some_iff.mp closed with ⟨tail, found, rfl⟩
        rcases inductionHypothesis found with ⟨inner, quotable, rfl⟩
        refine ⟨_, .plain noQuote ?_ quotable, rfl⟩
        -- A backslash is read together with what follows it.
        intro backslash
        cases rest with
        | nil => exact noEnd backslash rfl
        | cons escaped rest => exact noEscape escaped rest backslash rfl
  · rintro ⟨⟨behind, rfl⟩, inner, quotable, rfl⟩
    rw [List.append_assoc]
    induction quotable with
    | nil =>
        rfl
    | plain noQuote noEscape others inductionHypothesis =>
        rw [List.cons_append, stringTail, inductionHypothesis]
        · rfl
        · exact noQuote
        · intro backslash
          exact absurd backslash noEscape
        · intro escaped rest backslash
          exact absurd backslash noEscape
    | escaped others inductionHypothesis =>
        rw [List.cons_append, List.cons_append, stringTail,
          inductionHypothesis]
        rfl

private theorem length_le_takeWhile {kept : Char → Bool}
    {piece rest : List Char} (within : piece <+: rest)
    (inside : ∀ character ∈ piece, kept character = true) :
    piece.length ≤ (rest.takeWhile kept).length := by
  rcases within with ⟨behind, rfl⟩
  rw [List.takeWhile_append_of_pos inside, List.length_append]
  exact Nat.le_add_right _ _

variable [IdentifierCharacters]

inductive Legal : TokenKind → List Char → Prop where
  | number {first : Char} {rest : List Char} (digit : isDigit first = true)
      (digits : ∀ character ∈ rest, isDigit character = true) :
      Legal .integer (first :: rest)
  | keyword {kind : TokenKind} (reserved : kind ∈ TokenKind.keywords) :
      Legal kind kind.name.toList
  | identifier {first : Char} {rest : List Char}
      (starts : isIdentifierStart first = true)
      (parts : ∀ character ∈ rest, isIdentifierPart character = true)
      (free : ∀ kind ∈ TokenKind.keywords,
        kind.name.toList ≠ first :: rest) :
      Legal .identifier (first :: rest)
  | string {inner : List Char} (quotable : Quotable inner) :
      Legal .text ('"' :: (inner ++ ['"']))
  | mark {kind : TokenKind} (listed : kind ∈ TokenKind.marks) :
      Legal kind kind.name.toList

/-- A lexeme is the longest one at the front of a text.  If it is illegal there
is none, and it takes the whole text behind a quote or else one character. -/
structure IsLongest (lexeme : Lexeme) (text : List Char) : Prop where
  legal : lexeme.kind ≠ .illegal →
    Legal lexeme.kind lexeme.text ∧ lexeme.text <+: text ∧
      ∀ kind piece, Legal kind piece → piece <+: text →
        piece.length ≤ lexeme.text.length
  illegal : lexeme.kind = .illegal →
    (∀ kind piece, Legal kind piece → ¬ piece <+: text) ∧
      ∃ first rest, text = first :: rest ∧
        lexeme.text = if first = '"' then text else [first]

/-! ### The first character -/

private theorem keyword_spelled {kind : TokenKind}
    (reserved : kind ∈ TokenKind.keywords) :
    ∃ first rest, kind.name.toList = first :: rest ∧
      isIdentifierStart first = true ∧
      ∀ character ∈ rest, isIdentifierPart character = true := by
  have checked : (TokenKind.keywords.all fun kind =>
      kind.name.toList.all (fun character => character.toNat < 0x80) &&
        (kind.name.toList.head?.any (@isIdentifierStart asciiIdentifiers) &&
          kind.name.toList.tail.all
            (@isIdentifierPart asciiIdentifiers))) = true := by
    decide +kernel
  have known := List.all_eq_true.mp checked kind reserved
  rw [Bool.and_eq_true, Bool.and_eq_true] at known
  cases shape : kind.name.toList with
  | nil =>
      rw [shape] at known
      cases known.2.1
  | cons first rest =>
      rw [shape] at known
      obtain ⟨ascii, starts, parts⟩ := known
      simp only [List.all_eq_true, decide_eq_true_eq,
        List.forall_mem_cons] at ascii
      refine ⟨first, rest, rfl, ?_, ?_⟩
      · rw [isIdentifierStart_of_ascii ascii.1]
        exact starts
      · intro character member
        rw [isIdentifierPart_of_ascii (ascii.2 character member)]
        exact List.all_eq_true.mp parts character member

private theorem mark_spelled {kind : TokenKind}
    (listed : kind ∈ TokenKind.marks) :
    ∃ first rest, kind.name.toList = first :: rest ∧ isMark first = true ∧
      markKind? (first :: rest) = some kind := by
  have checked : (TokenKind.marks.all fun kind =>
      kind.name.toList.head?.any (fun character =>
          decide (character.toNat < 0x80) &&
            @isMark asciiIdentifiers character) &&
        markKind? kind.name.toList == some kind) = true := by
    decide +kernel
  have known := List.all_eq_true.mp checked kind listed
  rw [Bool.and_eq_true, beq_iff_eq] at known
  cases shape : kind.name.toList with
  | nil =>
      rw [shape] at known
      cases known.1
  | cons first rest =>
      rw [shape, List.head?_cons, Option.any_some, Bool.and_eq_true,
        decide_eq_true_eq] at known
      refine ⟨first, rest, rfl, ?_, known.2⟩
      rw [isMark_of_ascii known.1.1]
      exact known.1.2

private theorem Legal.ne_illegal {kind : TokenKind} {text : List Char}
    (legal : Legal kind text) : kind ≠ .illegal := by
  rintro rfl
  cases legal with
  | keyword reserved => exact absurd reserved (by decide)
  | mark listed => exact absurd listed (by decide)

/-- The first character of a legal lexeme tells how it goes on. -/
theorem Legal.cases_first {kind : TokenKind} {text : List Char}
    (legal : Legal kind text) :
    ∃ first rest, text = first :: rest ∧
      ((isDigit first = true ∧
          ∀ character ∈ rest, isDigit character = true) ∨
        (first = '"' ∧
          ∃ inner, Quotable inner ∧ rest = inner ++ ['"']) ∨
        (isIdentifierStart first = true ∧
          ∀ character ∈ rest, isIdentifierPart character = true) ∨
        (isMark first = true ∧ markKind? text = some kind)) := by
  cases legal with
  | number digit digits =>
      exact ⟨_, _, rfl, .inl ⟨digit, digits⟩⟩
  | keyword reserved =>
      rcases keyword_spelled reserved with
        ⟨first, rest, spelled, starts, parts⟩
      exact ⟨first, rest, spelled, .inr (.inr (.inl ⟨starts, parts⟩))⟩
  | identifier starts parts _ =>
      exact ⟨_, _, rfl, .inr (.inr (.inl ⟨starts, parts⟩))⟩
  | string quotable =>
      exact ⟨_, _, rfl, .inr (.inl ⟨rfl, _, quotable, rfl⟩)⟩
  | mark listed =>
      rcases mark_spelled listed with ⟨first, rest, spelled, mark, same⟩
      rw [spelled]
      exact ⟨first, rest, rfl, .inr (.inr (.inr ⟨mark, same⟩))⟩

/-- A character that starts an operator starts nothing else. -/
theorem start_of_mark {character : Char} (mark : isMark character = true) :
    isDigit character = false ∧ character ≠ '"' ∧
      isIdentifierStart character = false := by
  simp only [isMark, Bool.and_eq_true, Bool.not_eq_true', bne_iff_ne]
    at mark
  exact ⟨mark.1.1.2, mark.1.2, mark.2⟩

section First

variable {kind : TokenKind} {first : Char} {piece : List Char}

private theorem Legal.digits (legal : Legal kind (first :: piece))
    (digit : isDigit first = true) :
    ∀ character ∈ piece, isDigit character = true := by
  rcases legal.cases_first with ⟨_, _, same, rest⟩
  cases same
  have known := digit_within_word digit
  rcases rest with ⟨_, digits⟩ | ⟨quote, _⟩ | ⟨starts, _⟩ | ⟨mark, _⟩
  · exact digits
  · exact absurd quote known.2.2.2
  · rw [known.2.1] at starts
    cases starts
  · rw [(start_of_mark mark).1] at digit
    cases digit

private theorem Legal.quotable (legal : Legal kind ('"' :: piece)) :
    ∃ inner, Quotable inner ∧ piece = inner ++ ['"'] := by
  rcases legal.cases_first with ⟨_, _, same, rest⟩
  cases same
  rcases rest with ⟨digit, _⟩ | ⟨_, quotable⟩ | ⟨starts, _⟩ | ⟨mark, _⟩
  · cases digit
  · exact quotable
  · exact absurd rfl (start_of_word starts).2.2
  · exact absurd rfl (start_of_mark mark).2.1

private theorem Legal.parts (legal : Legal kind (first :: piece))
    (starts : isIdentifierStart first = true) :
    ∀ character ∈ piece, isIdentifierPart character = true := by
  rcases legal.cases_first with ⟨_, _, same, rest⟩
  cases same
  have known := start_of_word starts
  rcases rest with ⟨digit, _⟩ | ⟨quote, _⟩ | ⟨_, parts⟩ | ⟨mark, _⟩
  · rw [known.2.1] at digit
    cases digit
  · exact absurd quote known.2.2
  · exact parts
  · rw [(start_of_mark mark).2.2] at starts
    cases starts

private theorem Legal.markKind (legal : Legal kind (first :: piece))
    (noDigit : isDigit first = false) (noQuote : first ≠ '"')
    (noStart : isIdentifierStart first = false) :
    markKind? (first :: piece) = some kind := by
  rcases legal.cases_first with ⟨_, _, same, rest⟩
  cases same
  rcases rest with ⟨digit, _⟩ | ⟨quote, _⟩ | ⟨starts, _⟩ | ⟨_, spelled⟩
  · rw [noDigit] at digit
    cases digit
  · exact absurd quote noQuote
  · rw [noStart] at starts
    cases starts
  · exact spelled

/-- A legal lexeme at the front of a text starts with the same character. -/
theorem Legal.of_isPrefix {text rest : List Char} (legal : Legal kind text)
    (front : text <+: first :: rest) :
    ∃ piece, text = first :: piece ∧ piece <+: rest := by
  rcases legal.cases_first with ⟨_, piece, rfl, _⟩
  rcases List.cons_prefix_cons.mp front with ⟨rfl, within⟩
  exact ⟨piece, rfl, within⟩

end First

/-! ### What is read is longest -/

private theorem number_isLongest {first : Char} (digit : isDigit first = true)
    (rest : List Char) :
    (number (first :: rest)).IsLongest (first :: rest) where
  legal _ := by
    rw [number_of_digit digit]
    refine ⟨.number digit (List.all_eq_true.mp List.all_takeWhile),
      List.cons_prefix_cons.mpr ⟨rfl, List.takeWhile_prefix _⟩, ?_⟩
    intro kind text legal front
    rcases legal.of_isPrefix front with ⟨piece, rfl, within⟩
    exact Nat.succ_le_succ (length_le_takeWhile within (legal.digits digit))
  illegal shown := by cases shown

private theorem quoted_isLongest (rest : List Char) :
    (quoted ('"' :: rest)).IsLongest ('"' :: rest) := by
  have closes : ∀ {kind piece}, Legal kind piece → piece <+: '"' :: rest →
      ∃ tail, piece = '"' :: tail ∧ stringTail rest = some tail := by
    intro kind piece legal front
    rcases legal.of_isPrefix front with ⟨tail, rfl, within⟩
    exact ⟨tail, rfl, stringTail_eq_some_iff.mpr ⟨within, legal.quotable⟩⟩
  rw [quoted]
  split
  next tail closed =>
    rcases stringTail_eq_some_iff.mp closed with
      ⟨within, inner, quotable, rfl⟩
    refine ⟨fun _ => ⟨.string quotable,
      List.cons_prefix_cons.mpr ⟨rfl, within⟩, ?_⟩, fun shown => ?_⟩
    · intro kind piece legal front
      rcases closes legal front with ⟨tail, rfl, closedToo⟩
      rw [closed] at closedToo
      cases closedToo
      exact Nat.le_refl _
    · cases shown
  next unclosed =>
    refine ⟨fun shown => absurd rfl shown, fun _ => ⟨?_, '"', rest, rfl,
      (if_pos rfl).symm⟩⟩
    intro kind piece legal front
    rcases closes legal front with ⟨tail, rfl, closed⟩
    rw [unclosed] at closed
    cases closed

private theorem word_legal {first : Char}
    (starts : isIdentifierStart first = true) (rest : List Char) :
    Legal (word (first :: rest)).kind (word (first :: rest)).text := by
  have parts : ∀ character ∈ rest.takeWhile isIdentifierPart,
      isIdentifierPart character = true :=
    List.all_eq_true.mp List.all_takeWhile
  change Legal ((TokenKind.keyword? (String.ofList
    (first :: rest.takeWhile isIdentifierPart))).getD .identifier)
    (first :: rest.takeWhile isIdentifierPart)
  cases found : TokenKind.keyword?
      (String.ofList (first :: rest.takeWhile isIdentifierPart)) with
  | none =>
      refine .identifier starts parts fun kind reserved spelled => ?_
      have missed := List.find?_eq_none.mp found kind reserved
      rw [← spelled, String.ofList_toList, beq_self_eq_true] at missed
      exact missed rfl
  | some kind =>
      unfold TokenKind.keyword? at found
      have spelled := List.find?_some found
      have keyword := Legal.keyword (List.mem_of_find?_eq_some found)
      rw [eq_of_beq spelled, String.toList_ofList] at keyword
      exact keyword

private theorem word_isLongest {first : Char}
    (starts : isIdentifierStart first = true) (rest : List Char) :
    (word (first :: rest)).IsLongest (first :: rest) where
  legal _ := by
    refine ⟨word_legal starts rest,
      List.cons_prefix_cons.mpr ⟨rfl, List.takeWhile_prefix _⟩, ?_⟩
    intro kind text legal front
    rcases legal.of_isPrefix front with ⟨piece, rfl, within⟩
    exact Nat.succ_le_succ (length_le_takeWhile within (legal.parts starts))
  illegal shown := absurd shown (word_legal starts rest).ne_illegal

section Operators

variable {first : Char} {rest : List Char} (noDigit : isDigit first = false)
  (noQuote : first ≠ '"') (noStart : isIdentifierStart first = false)

include noDigit noQuote noStart

/-- A legal lexeme that starts with no digit, quote or letter is an operator
of one or two characters. -/
theorem Legal.operator_cases {kind : TokenKind} {text : List Char}
    (legal : Legal kind text) (front : text <+: first :: rest) :
    (text = [first] ∧ singleKind first = kind) ∨
      ∃ second others, rest = second :: others ∧
        text = [first, second] ∧ pairKind? first second = some kind := by
  rcases legal.of_isPrefix front with ⟨piece, rfl, behind, rfl⟩
  have spelled := legal.markKind noDigit noQuote noStart
  cases piece with
  | nil =>
      exact .inl ⟨rfl, Option.some.inj spelled⟩
  | cons second piece =>
      cases piece with
      | nil => exact .inr ⟨second, behind, rfl, rfl, spelled⟩
      | cons third others => cases spelled

private theorem single_isLongest
    (alone : ∀ second others, rest = second :: others →
      pairKind? first second = none) :
    IsLongest ⟨singleKind first, [first]⟩ (first :: rest) := by
  have only : ∀ {kind text}, Legal kind text → text <+: first :: rest →
      text = [first] ∧ singleKind first = kind := by
    intro kind text legal front
    rcases legal.operator_cases noDigit noQuote noStart front with
      single | ⟨second, others, shape, _, pair⟩
    · exact single
    · rw [alone second others shape] at pair
      cases pair
  constructor
  · intro shown
    rcases single_listed first with illegal | ⟨listed, spelled⟩
    · exact absurd illegal shown
    · have legal := Legal.mark listed
      rw [spelled] at legal
      refine ⟨legal, ⟨rest, rfl⟩, fun kind text other front => ?_⟩
      rw [(only other front).1]
  · intro illegal
    refine ⟨fun kind text legal front => ?_, first, rest, rfl,
      (if_neg noQuote).symm⟩
    exact legal.ne_illegal ((only legal front).2.symm.trans illegal)

private theorem pair_isLongest {second : Char} {kind : TokenKind}
    (pair : pairKind? first second = some kind) :
    IsLongest ⟨kind, [first, second]⟩ (first :: second :: rest) := by
  rcases pair_listed pair with ⟨listed, spelled⟩
  have legal := Legal.mark listed
  rw [spelled] at legal
  refine ⟨fun _ => ⟨legal, ⟨rest, rfl⟩, fun other text longer front => ?_⟩,
    fun illegal => absurd illegal legal.ne_illegal⟩
  rcases longer.operator_cases noDigit noQuote noStart front with
    ⟨rfl, _⟩ | ⟨_, _, _, rfl, _⟩
  · exact Nat.le_succ 1
  · exact Nat.le_refl 2

private theorem operator_isLongest (rest : List Char) :
    (operator first rest).IsLongest (first :: rest) := by
  cases rest with
  | nil =>
      exact single_isLongest noDigit noQuote noStart fun _ _ shape => by
        cases shape
  | cons second rest =>
      cases pair : pairKind? first second with
      | none =>
          rw [operator, pair]
          apply single_isLongest noDigit noQuote noStart
          intro other others shape
          cases shape
          exact pair
      | some kind =>
          rw [operator, pair]
          exact pair_isLongest noDigit noQuote noStart pair

end Operators

theorem read_isLongest (first : Char) (rest : List Char) :
    (read first rest).IsLongest (first :: rest) := by
  unfold read
  split
  next digit => exact number_isLongest digit rest
  next noDigit =>
    split
    next quote =>
      rw [eq_of_beq quote]
      exact quoted_isLongest rest
    next noQuote =>
      split
      next starts => exact word_isLongest starts rest
      next noStart =>
        exact operator_isLongest (eq_false_of_ne_true noDigit)
          (fun quote => noQuote (beq_iff_eq.mpr quote))
          (eq_false_of_ne_true noStart) rest

/-- A lexeme has the kind of a keyword just when it is the word for it. -/
theorem Legal.keyword_iff {kind keyword : TokenKind} {text : List Char}
    (legal : Legal kind text) (reserved : keyword ∈ TokenKind.keywords) :
    kind = keyword ↔ text = keyword.name.toList := by
  constructor
  · rintro rfl
    cases legal with
    | number => exact absurd reserved (by decide)
    | keyword => rfl
    | identifier => exact absurd reserved (by decide)
    | string => exact absurd reserved (by decide)
    | mark => rfl
  · intro spelled
    rcases keyword_spelled reserved with ⟨first, rest, shape, starts, _⟩
    have known := start_of_word starts
    have front : ∀ {other others}, other :: others = keyword.name.toList →
        other = first := by
      intro other others same
      rw [shape] at same
      exact (List.cons.inj same).1
    cases legal with
    | number digit =>
        rw [front spelled, known.2.1] at digit
        cases digit
    | keyword reservedToo =>
        have distinct : ∀ one ∈ TokenKind.keywords,
            ∀ two ∈ TokenKind.keywords, one.name = two.name → one = two := by
          decide
        exact distinct _ reservedToo _ reserved (String.toList_inj.mp spelled)
    | identifier _ _ free =>
        exact absurd spelled.symm (free keyword reserved)
    | string =>
        exact absurd (front spelled).symm known.2.2
    | mark listed =>
        rcases mark_spelled listed with ⟨_, _, shapeToo, mark, _⟩
        rw [shapeToo] at spelled
        rw [front spelled] at mark
        rw [(start_of_mark mark).2.2] at starts
        cases starts

private theorem IsLongest.isPrefix {lexeme : Lexeme} {text : List Char}
    (longest : lexeme.IsLongest text) : lexeme.text <+: text := by
  by_cases shown : lexeme.kind = .illegal
  · rcases (longest.illegal shown).2 with ⟨first, rest, rfl, same⟩
    rw [same]
    split
    · exact List.prefix_rfl
    · exact ⟨rest, rfl⟩
  · exact (longest.legal shown).2.1

/-- What is longest somewhere is a keyword just when it is spelled like
one. -/
theorem IsLongest.keyword_iff {lexeme : Lexeme} {text : List Char}
    (longest : lexeme.IsLongest text) {keyword : TokenKind}
    (reserved : keyword ∈ TokenKind.keywords) :
    lexeme.kind = keyword ↔ lexeme.text = keyword.name.toList := by
  by_cases shown : lexeme.kind = .illegal
  · have none := (longest.illegal shown).1 keyword _ (.keyword reserved)
    constructor
    · intro same
      rw [← same, shown] at reserved
      exact absurd reserved (by decide)
    · intro spelled
      exact absurd (spelled ▸ longest.isPrefix) none
  · exact (longest.legal shown).1.keyword_iff reserved

end Lexeme

/-! ### Tokens of a text -/

section

variable [IdentifierCharacters]

/-- Every token of a text but the last is read somewhere in it. -/
theorem exists_read_of_mem {place : Place} {text : List Char} {token : Token}
    (member : token ∈ tokensFrom place text) (proper : token.isEnd = false) :
    ∃ before first rest, text = before ++ first :: rest ∧
      token = (Lexeme.read first rest).token (place.past before) := by
  fun_induction tokensFrom place text with
  | case1 place text blanks here used =>
      rw [List.mem_singleton.mp member] at proper
      cases proper
  | case2 place text blanks here first rest found lexeme
      inductionHypothesis =>
      have whole : text = blanks ++ first :: rest := by
        rw [← found]
        exact List.takeWhile_append_dropWhile.symm
      rcases List.mem_cons.mp member with rfl | later
      · exact ⟨blanks, first, rest, whole, rfl⟩
      · rcases inductionHypothesis later with
          ⟨before, other, others, behind, same⟩
        refine ⟨blanks ++ (lexeme.text ++ before), other, others, ?_, ?_⟩
        · have pieces :
              lexeme.text ++ lexeme.behind (first :: rest) = first :: rest :=
            Lexeme.text_append_behind first rest
          rw [whole, ← pieces, behind]
          simp
        · rw [same, Place.past_append, Place.past_append]

/-- Every token of a text is the longest lexeme where it stands, and it is a
keyword just when it is spelled like one. -/
theorem tokenize_longest {source : String} {token : Token}
    (member : token ∈ tokenize source) (proper : token.isEnd = false) :
    ∃ before behind,
      splitAtByte source.toList token.position = some (before, behind) ∧
      token.lexeme.IsLongest behind ∧
      ∀ keyword ∈ TokenKind.keywords,
        token.kind = keyword ↔ token.literal = keyword.name := by
  rcases exists_read_of_mem member proper with
    ⟨before, first, rest, whole, rfl⟩
  have longest := Lexeme.read_isLongest first rest
  refine ⟨before, first :: rest, ?_, ?_, fun keyword reserved => ?_⟩
  · rw [splitAtByte_eq_some_iff]
    refine ⟨whole, ?_⟩
    rw [Lexeme.token, Place.past, Place.start, Nat.zero_add]
  · rw [Lexeme.lexeme_token]
    exact longest
  · rw [Lexeme.token, ← String.toList_inj, String.toList_ofList]
    exact longest.keyword_iff reserved

end

open IdentifierTables

/-- An operator of two characters is cut off in front of one of one character,
behind an identifier that starts like a keyword. -/
theorem tokenize_longest_lessEqual :
    (⟨.lessEqual, "<=", 3, 1⟩ : Token) ∈ tokenize "ifx<==1" ∧
      ∃ before behind,
        splitAtByte "ifx<==1".toList 3 = some (before, behind) ∧
        Lexeme.IsLongest ⟨.lessEqual, "<=".toList⟩ behind ∧
        ∀ keyword ∈ TokenKind.keywords,
          TokenKind.lessEqual = keyword ↔ "<=" = keyword.name := by
  have cut : tokenize "ifx<==1" =
      [⟨.identifier, "ifx", 0, 1⟩, ⟨.lessEqual, "<=", 3, 1⟩,
        ⟨.assign, "=", 5, 1⟩, ⟨.integer, "1", 6, 1⟩,
        Token.endOfInput 7 1] := by
    decide +kernel
  have member : (⟨.lessEqual, "<=", 3, 1⟩ : Token) ∈
      tokenize "ifx<==1" := by
    rw [cut]
    exact List.mem_cons_of_mem _ List.mem_cons_self
  exact ⟨member, tokenize_longest member rfl⟩

end ContractCompiler
