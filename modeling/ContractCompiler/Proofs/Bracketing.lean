/-
Brackets of a text and brackets of its tokens.

Whether an entry has to go on is told from single characters, without cutting
the entry into tokens.  Both ways see the same brackets: outside strings a
bracket is a token of its own, and inside strings neither way sees one.
-/

import ContractCompiler.Console.Entry
import ContractCompiler.Proofs.Lexemes

namespace ContractCompiler

/-! ### Brackets among tokens -/

inductive Bracket where
  | paren
  | brace
  deriving DecidableEq

namespace Bracket

def closing : Bracket → Char
  | .paren => ')'
  | .brace => '\x7d'

def close (bracket : Bracket) : List Bracket → Option (List Bracket)
  | [] => none
  | innermost :: others =>
      if innermost = bracket then some others else none

end Bracket

/-- The brackets that are open behind a token, the innermost first.  There are
none such behind a closing bracket that does not match. -/
def TokenKind.nest (opened : List Bracket) :
    TokenKind → Option (List Bracket)
  | .leftParen => some (.paren :: opened)
  | .leftBrace => some (.brace :: opened)
  | .rightParen => Bracket.paren.close opened
  | .rightBrace => Bracket.brace.close opened
  | _ => some opened

/-- The brackets that are open behind some tokens, unless a closing bracket
among them does not match the innermost open one. -/
def nesting (opened : List Bracket) :
    List TokenKind → Option (List Bracket)
  | [] => some opened
  | kind :: rest => (kind.nest opened).bind fun opened => nesting opened rest

theorem nesting_append (opened : List Bracket)
    (first second : List TokenKind) :
    nesting opened (first ++ second) =
      (nesting opened first).bind fun opened => nesting opened second := by
  induction first generalizing opened with
  | nil =>
      rfl
  | cons kind rest inductionHypothesis =>
      rw [List.cons_append, nesting, nesting, Option.bind_assoc]
      congr 1
      funext inner
      exact inductionHypothesis inner

/-! ### Brackets among characters -/

namespace Console

variable {opened : List Bracket}

def isLoose (character : Char) : Bool :=
  !(['"', '(', ')', '\x7b', '\x7d'].contains character)

private theorem balancedFrom_cons_loose {character : Char}
    (loose : isLoose character = true) (awaited rest : List Char) :
    balancedFrom awaited false (character :: rest) =
      balancedFrom awaited false rest := by
  simp only [isLoose, List.contains_cons, List.contains_nil,
    Bool.or_false, Bool.not_eq_true', Bool.or_eq_false_iff] at loose
  cases awaited <;> simp [balancedFrom, loose]

private theorem balancedFrom_loose {piece : List Char}
    (loose : ∀ character ∈ piece, isLoose character = true)
    (awaited rest : List Char) :
    balancedFrom awaited false (piece ++ rest) =
      balancedFrom awaited false rest := by
  induction piece with
  | nil =>
      rfl
  | cons character others inductionHypothesis =>
      rw [List.cons_append,
        balancedFrom_cons_loose (loose character List.mem_cons_self)]
      exact inductionHypothesis fun other member =>
        loose other (List.mem_cons_of_mem _ member)

/-- A character outside strings opens or closes what the token that it would
be on its own does. -/
theorem balancedFrom_single {character : Char} (noQuote : character ≠ '"')
    (rest : List Char) :
    balancedFrom (opened.map Bracket.closing) false (character :: rest) =
      match (Lexeme.singleKind character).nest opened with
      | some inner => balancedFrom (inner.map Bracket.closing) false rest
      | none => true := by
  by_cases leftParen : character = '('
  · subst leftParen
    cases opened <;> rfl
  by_cases leftBrace : character = '\x7b'
  · subst leftBrace
    cases opened <;> rfl
  by_cases rightParen : character = ')'
  · subst rightParen
    cases opened with
    | nil => rfl
    | cons innermost others => cases innermost <;> rfl
  by_cases rightBrace : character = '\x7d'
  · subst rightBrace
    cases opened with
    | nil => rfl
    | cons innermost others => cases innermost <;> rfl
  · have loose : isLoose character = true := by
      simp [isLoose, noQuote, leftParen, leftBrace, rightParen, rightBrace]
    have unnested : (Lexeme.singleKind character).nest opened =
        some opened := by
      unfold Lexeme.singleKind
      split <;> first | rfl | contradiction
    rw [unnested, balancedFrom_cons_loose loose]

/-- A string that is open is read up to its closing quote. -/
theorem balancedFrom_quoted (awaited rest : List Char) :
    balancedFrom awaited true rest =
      match Lexeme.stringTail rest with
      | some tail => balancedFrom awaited false (rest.drop tail.length)
      | none => false := by
  fun_induction Lexeme.stringTail rest with
  | case1 =>
      rfl
  | case2 rest =>
      rfl
  | case3 =>
      rfl
  | case4 escaped rest inductionHypothesis =>
      rw [balancedFrom, inductionHypothesis]
      cases Lexeme.stringTail rest <;> rfl
  | case5 character rest noQuote noEnd noEscape inductionHypothesis =>
      have more : (character != '"') = true := by
        simpa using noQuote
      rw [balancedFrom, more, inductionHypothesis]
      · cases Lexeme.stringTail rest <;> rfl
      · exact noEnd
      · exact noEscape

private theorem isLoose_of_blank {character : Char}
    (blank : isBlank character = true) : isLoose character = true :=
  CodePoints.holds_of_checked isLoose (by decide +kernel) blank

private theorem balancedFrom_trimStart (awaited text : List Char) :
    balancedFrom awaited false text =
      balancedFrom awaited false (text.dropWhile isBlank) := by
  have blank : ∀ character ∈ text.takeWhile isBlank,
      isLoose character = true := by
    intro character member
    exact isLoose_of_blank
      (List.all_eq_true.mp List.all_takeWhile character member)
  have skipped := balancedFrom_loose blank awaited (text.dropWhile isBlank)
  rw [List.takeWhile_append_dropWhile] at skipped
  exact skipped

end Console

/-! ### One lexeme -/

def Lexeme.isUnclosed (lexeme : Lexeme) : Bool :=
  lexeme.kind == .illegal && lexeme.text.head? == some '"'

namespace Console

/-- Going on behind a lexeme at the front of a text comes to the same as going
through the characters of the text. -/
def Sees (lexeme : Lexeme) (text behind : List Char) : Prop :=
  ∀ opened : List Bracket,
    balancedFrom (opened.map Bracket.closing) false text =
      (!lexeme.isUnclosed &&
        match lexeme.kind.nest opened with
        | some inner => balancedFrom (inner.map Bracket.closing) false behind
        | none => true)

private theorem sees_loose {lexeme : Lexeme}
    (loose : ∀ character ∈ lexeme.text, isLoose character = true)
    (unnested : ∀ opened, lexeme.kind.nest opened = some opened)
    (behind : List Char) : Sees lexeme (lexeme.text ++ behind) behind := by
  intro opened
  have closed : lexeme.isUnclosed = false := by
    by_contra unclosed
    rw [Bool.not_eq_false, Lexeme.isUnclosed, Bool.and_eq_true,
      beq_iff_eq, beq_iff_eq] at unclosed
    cases loose '"' (List.mem_of_mem_head? unclosed.2)
  rw [balancedFrom_loose loose, closed, unnested]
  rfl

private theorem sees_quoted (rest : List Char) :
    Sees (Lexeme.quoted ('"' :: rest)) ('"' :: rest)
      ((Lexeme.quoted ('"' :: rest)).behind ('"' :: rest)) := by
  intro opened
  have enters : balancedFrom (opened.map Bracket.closing) false
      ('"' :: rest) = balancedFrom (opened.map Bracket.closing) true rest := by
    cases opened <;> rfl
  rw [enters, balancedFrom_quoted, Lexeme.quoted]
  cases Lexeme.stringTail rest <;> rfl

private theorem sees_single {first : Char} (noQuote : first ≠ '"')
    (rest : List Char) :
    Sees ⟨Lexeme.singleKind first, [first]⟩ (first :: rest) rest := by
  intro opened
  have closed : Lexeme.isUnclosed ⟨Lexeme.singleKind first, [first]⟩ =
      false := by
    simp [Lexeme.isUnclosed, noQuote]
  rw [balancedFrom_single noQuote, closed]
  rfl

private theorem sees_pair {first second : Char} {kind : TokenKind}
    (found : Lexeme.pairKind? first second = some kind) (rest : List Char) :
    Sees ⟨kind, [first, second]⟩ (first :: second :: rest) rest := by
  unfold Lexeme.pairKind? at found
  split at found <;> cases found <;>
    exact sees_loose (List.all_eq_true.mp (by decide)) (fun _ => rfl) rest

private theorem sees_operator {first : Char} (noQuote : first ≠ '"')
    (rest : List Char) :
    Sees (Lexeme.operator first rest) (first :: rest)
      ((Lexeme.operator first rest).behind (first :: rest)) := by
  cases rest with
  | nil =>
      exact sees_single noQuote []
  | cons second others =>
      rw [Lexeme.operator]
      split
      next kind found => exact sees_pair found others
      next => exact sees_single noQuote (second :: others)

variable [IdentifierCharacters]

private theorem isLoose_of_part {character : Char}
    (part : isIdentifierPart character = true) :
    isLoose character = true := by
  have checked : ['"', '(', ')', '\x7b', '\x7d'].all (fun character =>
      decide (character.toNat < 0x80) &&
        !@isIdentifierPart asciiIdentifiers character) = true := by
    decide
  have outside : character ∉ ['"', '(', ')', '\x7b', '\x7d'] := by
    intro member
    have unpart := List.all_eq_true.mp checked character member
    rw [Bool.and_eq_true, decide_eq_true_eq] at unpart
    rw [← isIdentifierPart_of_ascii unpart.1, part] at unpart
    cases unpart.2
  rw [isLoose, Bool.not_eq_true', List.contains_eq_mem]
  exact decide_eq_false outside

private theorem sees_word {first : Char}
    (starts : isIdentifierStart first = true) (rest : List Char) :
    Sees (Lexeme.word (first :: rest))
      ((Lexeme.word (first :: rest)).text ++
        (Lexeme.word (first :: rest)).behind (first :: rest))
      ((Lexeme.word (first :: rest)).behind (first :: rest)) := by
  apply sees_loose
  · intro character member
    rcases List.mem_cons.mp member with rfl | inside
    · exact isLoose_of_part (isIdentifierPart_of_start starts)
    · exact isLoose_of_part
        (List.all_eq_true.mp List.all_takeWhile character inside)
  · intro opened
    rw [Lexeme.word, Lexeme.wordKind]
    cases found : TokenKind.keyword? _ with
    | none => rfl
    | some kind =>
        have reserved : kind ∈ TokenKind.keywords :=
          List.mem_of_find?_eq_some found
        revert reserved
        cases kind <;> intro reserved <;>
          first | rfl | exact absurd reserved (by decide)

private theorem sees_number (text : List Char) :
    Sees (Lexeme.number text)
      ((Lexeme.number text).text ++ (Lexeme.number text).behind text)
      ((Lexeme.number text).behind text) := by
  apply sees_loose
  · intro character member
    have digit : isDigit character = true :=
      List.all_eq_true.mp List.all_takeWhile character member
    exact isLoose_of_part (digit_within_word digit).1
  · exact fun _ => rfl

private theorem sees_read (first : Char) (rest : List Char) :
    Sees (Lexeme.read first rest) (first :: rest)
      ((Lexeme.read first rest).behind (first :: rest)) := by
  have whole := Lexeme.text_append_behind first rest
  unfold Lexeme.read at whole ⊢
  split
  next digit =>
    have sees := sees_number (first :: rest)
    rw [if_pos digit] at whole
    rwa [whole] at sees
  next noDigit =>
    split
    next quote =>
      rw [eq_of_beq quote]
      exact sees_quoted rest
    next noQuote =>
      rw [if_neg noDigit, if_neg noQuote] at whole
      split
      next starts =>
        have sees := sees_word starts rest
        rw [if_pos starts] at whole
        rwa [whole] at sees
      next =>
        exact sees_operator (fun same => noQuote (beq_iff_eq.mpr same)) rest

/-! ### All lexemes -/

/-- A string that is never closed is the last lexeme of a text. -/
theorem behind_of_isUnclosed {first : Char} {rest : List Char}
    (unclosed : (Lexeme.read first rest).isUnclosed = true) :
    (Lexeme.read first rest).kind = .illegal ∧
      (Lexeme.read first rest).behind (first :: rest) = [] := by
  rw [Lexeme.isUnclosed, Bool.and_eq_true, beq_iff_eq, beq_iff_eq]
    at unclosed
  refine ⟨unclosed.1, ?_⟩
  obtain ⟨piece, spelled, _⟩ := Lexeme.read_isPrefix first rest
  have quote : first = '"' := by
    rw [spelled] at unclosed
    exact Option.some.inj unclosed.2
  subst quote
  have same : Lexeme.read '"' rest = Lexeme.quoted ('"' :: rest) := by
    rw [Lexeme.read, if_neg (by decide), if_pos (by decide)]
  rw [same] at unclosed ⊢
  rw [Lexeme.quoted] at unclosed ⊢
  cases closed : Lexeme.stringTail rest with
  | none =>
      simp [Lexeme.behind]
  | some tail =>
      rw [closed] at unclosed
      cases unclosed.1

/-- What is told from the characters of a text is told from its lexemes. -/
theorem balancedFrom_iff_nesting (opened : List Bracket)
    (text : List Char) :
    balancedFrom (opened.map Bracket.closing) false text = true ↔
      nesting opened ((lexemesOf text).map Lexeme.kind) = none ∨
        (nesting opened ((lexemesOf text).map Lexeme.kind) = some [] ∧
          ∀ lexeme ∈ lexemesOf text, lexeme.isUnclosed = false) := by
  rw [balancedFrom_trimStart]
  fun_induction lexemesOf text generalizing opened with
  | case1 text used =>
      rw [used]
      cases opened with
      | nil => simp [balancedFrom, nesting]
      | cons innermost others => simp [balancedFrom, nesting]
  | case2 text first rest found inductionHypothesis =>
      rw [found, sees_read first rest opened, List.map_cons, nesting]
      cases unclosed : (Lexeme.read first rest).isUnclosed with
      | true =>
          obtain ⟨illegal, ended⟩ := behind_of_isUnclosed unclosed
          rw [illegal, ended, lexemesOf_nil]
          simp [TokenKind.nest, nesting, unclosed]
      | false =>
          cases (Lexeme.read first rest).kind.nest opened with
          | none =>
              simp
          | some inner =>
              have others := inductionHypothesis inner
              rw [← balancedFrom_trimStart] at others
              simpa [unclosed] using others

/-! ### Tokens -/

end Console

def Token.Unclosed (token : Token) : Prop :=
  token.kind = .illegal ∧ token.literal.toList.head? = some '"'

private theorem Token.isUnclosed_lexeme {token : Token} :
    token.lexeme.isUnclosed = true ↔ token.Unclosed := by
  rw [Lexeme.isUnclosed, Bool.and_eq_true, beq_iff_eq, beq_iff_eq]
  rfl

namespace Console

variable [IdentifierCharacters]

/-- The brackets and strings of an entry are told from its characters as from
its tokens. -/
theorem isBalanced_iff_nesting (text : String) :
    isBalanced text.toList = true ↔
      nesting [] ((tokenize text).map Token.kind) = none ∨
        (nesting [] ((tokenize text).map Token.kind) = some [] ∧
          ∀ token ∈ tokenize text, ¬ token.Unclosed) := by
  have lexemes : (tokenize text).map Token.lexeme =
      lexemesOf text.toList ++ [⟨.endOfInput, []⟩] :=
    lexemes_tokensFrom .start text.toList
  have kinds : (tokenize text).map Token.kind =
      (lexemesOf text.toList).map Lexeme.kind ++
        [TokenKind.endOfInput] := by
    have mapped := congrArg (List.map Lexeme.kind) lexemes
    rw [List.map_map, List.map_append] at mapped
    exact mapped
  have nested : nesting [] ((tokenize text).map Token.kind) =
      nesting [] ((lexemesOf text.toList).map Lexeme.kind) := by
    rw [kinds, nesting_append]
    cases nesting [] ((lexemesOf text.toList).map Lexeme.kind) <;> rfl
  have closed : (∀ token ∈ tokenize text, ¬ token.Unclosed) ↔
      ∀ lexeme ∈ lexemesOf text.toList, lexeme.isUnclosed = false := by
    have spread : (∀ token ∈ tokenize text, ¬ token.Unclosed) ↔
        ∀ lexeme ∈ (tokenize text).map Token.lexeme,
          lexeme.isUnclosed = false := by
      simp [← Token.isUnclosed_lexeme]
    rw [spread, lexemes, List.forall_mem_append]
    simp [Lexeme.isUnclosed]
  rw [nested, closed]
  exact balancedFrom_iff_nesting [] text.toList

end Console

end ContractCompiler
