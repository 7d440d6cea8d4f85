/-
Finished entries are not held back.

The tokens of a contract have matching brackets, and none of them is illegal.
An entry that is read as a contract, on its own or as the functions of one, is
therefore balanced.  It ends in a brace, so it does not ask for more either.
-/

import ContractCompiler.Console.Session
import ContractCompiler.Proofs.Bracketing
import ContractCompiler.Proofs.LongestMatch
import ContractCompiler.Proofs.Rendering
import ContractCompiler.Text.Identifier

namespace ContractCompiler

/-! ### Tokens with matching brackets -/

structure Bracketed (tokens : List Token) : Prop where
  nested : ∀ opened,
    nesting opened (tokens.map Token.kind) = some opened
  proper : ∀ token ∈ tokens, token.kind ≠ .illegal

def TokenKind.isUnbracketed : TokenKind → Bool
  | .illegal | .leftParen | .rightParen | .leftBrace | .rightBrace => false
  | _ => true

private theorem TokenKind.nest_of_isUnbracketed {kind : TokenKind}
    (free : kind.isUnbracketed = true) (opened : List Bracket) :
    kind.nest opened = some opened := by
  cases kind <;> first | rfl | cases free

namespace Bracketed

variable {tokens inner : List Token}

theorem nil : Bracketed [] :=
  ⟨fun _ => rfl, List.forall_mem_nil _⟩

theorem append (first : Bracketed inner) (second : Bracketed tokens) :
    Bracketed (inner ++ tokens) := by
  constructor
  · intro opened
    rw [List.map_append, nesting_append, first.nested]
    exact second.nested opened
  · exact List.forall_mem_append.mpr ⟨first.proper, second.proper⟩

theorem cons {token : Token} (free : token.kind.isUnbracketed = true)
    (others : Bracketed tokens) : Bracketed (token :: tokens) := by
  constructor
  · intro opened
    rw [List.map_cons, nesting, TokenKind.nest_of_isUnbracketed free]
    exact others.nested opened
  · refine List.forall_mem_cons.mpr ⟨?_, others.proper⟩
    intro illegal
    rw [illegal] at free
    cases free

private theorem word {kind : TokenKind} (free : kind.isUnbracketed = true)
    (token : Terminal kind) (others : Bracketed tokens) :
    Bracketed (token.val :: tokens) :=
  others.cons (by rw [token.property]; exact free)

/-- Brackets around tokens with matching brackets. -/
theorem around {opening closing : Token} (bracket : Bracket)
    (opens : ∀ opened, opening.kind.nest opened = some (bracket :: opened))
    (closes : ∀ opened, closing.kind.nest (bracket :: opened) = some opened)
    (proper : opening.kind ≠ .illegal ∧ closing.kind ≠ .illegal)
    (within : Bracketed inner) (others : Bracketed tokens) :
    Bracketed (opening :: (inner ++ closing :: tokens)) := by
  constructor
  · intro opened
    rw [List.map_cons, List.map_append, List.map_cons, nesting, opens,
      Option.bind_some, nesting_append, within.nested, Option.bind_some,
      nesting, closes]
    exact others.nested opened
  · refine List.forall_mem_cons.mpr ⟨proper.1, ?_⟩
    exact List.forall_mem_append.mpr ⟨within.proper,
      List.forall_mem_cons.mpr ⟨proper.2, others.proper⟩⟩

private theorem parentheses (opening : Terminal .leftParen)
    (closing : Terminal .rightParen) (within : Bracketed inner)
    (others : Bracketed tokens) :
    Bracketed (opening.val :: (inner ++ closing.val :: tokens)) := by
  refine around .paren ?_ ?_ ?_ within others
  · rw [opening.property]
    exact fun _ => rfl
  · rw [closing.property]
    exact fun _ => rfl
  · rw [opening.property, closing.property]
    decide

private theorem braces (opening : Terminal .leftBrace)
    (closing : Terminal .rightBrace) (within : Bracketed inner)
    (others : Bracketed tokens) :
    Bracketed (opening.val :: (inner ++ closing.val :: tokens)) := by
  refine around .brace ?_ ?_ ?_ within others
  · rw [opening.property]
    exact fun _ => rfl
  · rw [closing.property]
    exact fun _ => rfl
  · rw [opening.property, closing.property]
    decide

end Bracketed

/-! ### Tokens of a contract -/

private theorem Token.StandsFor.isUnbracketed {token : Token}
    {expression : Expression} (stands : token.StandsFor expression) :
    token.kind.isUnbracketed = true := by
  cases stands with
  | identifier kind => rw [kind]; rfl
  | integer kind fits => rw [kind]; rfl
  | text kind => rw [kind]; rfl
  | truth kind => rw [kind]; rfl
  | falsehood kind => rw [kind]; rfl

private theorem Operator.Leads.isUnbracketed {operator : Operator}
    {kind : TokenKind} (leads : operator.Leads kind) :
    kind.isUnbracketed = true := by
  cases leads <;> rfl

private theorem Operator.Joins.isUnbracketed {operator : Operator}
    {kind : TokenKind} {level : Nat} (joins : operator.Joins kind level) :
    kind.isUnbracketed = true := by
  cases joins <;> rfl

private theorem ExpressionTree.bracketed {level : Nat}
    (tree : ExpressionTree level) : Bracketed tree.tokens := by
  induction tree with
  | primary token expression stands =>
      exact Bracketed.nil.cons stands.isUnbracketed
  | parentheses opening inner closing inductionHypothesis =>
      exact .parentheses opening closing inductionHypothesis .nil
  | signed sign operator leads operand inductionHypothesis =>
      exact inductionHypothesis.cons leads.isUnbracketed
  | tighter infixLevel inner inductionHypothesis =>
      exact inductionHypothesis
  | joined left sign operator joins right first second =>
      exact first.append (second.cons joins.isUnbracketed)

private theorem TypeTree.bracketed (tree : TypeTree) :
    Bracketed tree.tokens := by
  cases tree with
  | int word => exact .word rfl word .nil
  | string word => exact .word rfl word .nil
  | bool word => exact .word rfl word .nil

private theorem ParametersTree.bracketed (tree : ParametersTree) :
    Bracketed tree.tokens := by
  induction tree with
  | last name type =>
      exact .word rfl name type.bracketed
  | more name type comma others inductionHypothesis =>
      exact .word rfl name
        (type.bracketed.append (.word rfl comma inductionHypothesis))

mutual

theorem StatementTree.bracketed (tree : StatementTree) :
    Bracketed tree.tokens := by
  match tree with
  | .returnsNothing word =>
      exact .word rfl word .nil
  | .returnsValue word value =>
      exact .word rfl word value.bracketed
  | .assigns type name sign value =>
      exact type.bracketed.append
        (.word rfl name (.word rfl sign value.bracketed))
  | .ifThen word opening condition closing consequence =>
      exact .word rfl word (.parentheses opening closing
        condition.bracketed consequence.bracketed)
  | .ifThenElse word opening condition closing consequence otherwise
      alternative =>
      exact .word rfl word (.parentheses opening closing
        condition.bracketed (consequence.bracketed.append
          (.word rfl otherwise alternative.bracketed)))
  | .evaluates value =>
      exact value.bracketed

theorem BlockTree.bracketed (tree : BlockTree) :
    Bracketed tree.tokens := by
  match tree with
  | .braces opening statements closing =>
      exact .braces opening closing statements.bracketed .nil

theorem StatementsTree.bracketed (tree : StatementsTree) :
    Bracketed tree.tokens := by
  match tree with
  | .none =>
      exact .nil
  | .more first others =>
      exact first.bracketed.append others.bracketed

end

private theorem FunctionTree.bracketed (tree : FunctionTree) :
    Bracketed tree.tokens := by
  obtain ⟨word, name, opening, parameters, closing, returnType, body⟩ := tree
  have listed : Bracketed (parameters.elim [] ParametersTree.tokens) := by
    cases parameters with
    | none => exact .nil
    | some parameters => exact parameters.bracketed
  have typed : Bracketed (returnType.elim [] TypeTree.tokens) := by
    cases returnType with
    | none => exact .nil
    | some type => exact type.bracketed
  exact .word rfl word (.word rfl name
    (.parentheses opening closing listed (typed.append body.bracketed)))

private theorem FunctionTree.bracketed_all (trees : List FunctionTree) :
    Bracketed (trees.flatMap FunctionTree.tokens) := by
  induction trees with
  | nil =>
      exact .nil
  | cons first others inductionHypothesis =>
      rw [List.flatMap_cons]
      exact first.bracketed.append inductionHypothesis

private theorem ContractTree.bracketed (tree : ContractTree) :
    Bracketed tree.tokens :=
  .word rfl tree.word (.braces tree.opening tree.closing
    (FunctionTree.bracketed_all tree.functions) .nil)

private theorem BlockTree.ends (tree : BlockTree) :
    ∃ front, ∃ last : Token, tree.tokens = front ++ [last] ∧
      last.kind = .rightBrace := by
  cases tree with
  | braces opening statements closing =>
      exact ⟨opening.val :: statements.tokens, closing.val, rfl,
        closing.property⟩

private theorem FunctionTree.ends (tree : FunctionTree) :
    ∃ front, ∃ last : Token, tree.tokens = front ++ [last] ∧
      last.kind = .rightBrace := by
  obtain ⟨front, last, same, closes⟩ := tree.body.ends
  refine ⟨tree.word.val :: tree.name.val :: tree.opening.val ::
    (tree.parameters.elim [] ParametersTree.tokens ++ tree.closing.val ::
      (tree.returnType.elim [] TypeTree.tokens ++ front)), last, ?_, closes⟩
  rw [tokens, same]
  simp

private theorem FunctionTree.ends_all {trees : List FunctionTree}
    (some : trees ≠ []) :
    ∃ front, ∃ last : Token,
      trees.flatMap FunctionTree.tokens = front ++ [last] ∧
        last.kind = .rightBrace := by
  obtain ⟨others, final, rfl⟩ : ∃ others final, trees = others ++ [final] :=
    ⟨_, _, (List.dropLast_append_getLast some).symm⟩
  obtain ⟨front, last, same, closes⟩ := final.ends
  refine ⟨others.flatMap FunctionTree.tokens ++ front, last, ?_, closes⟩
  rw [List.flatMap_append, List.flatMap_singleton, same, List.append_assoc]

/-! ### Characters of a text -/

namespace Lexeme

/-- A string that is open is not closed by a text without quotes. -/
theorem stringTail_append_none {rest behind : List Char}
    (unclosed : stringTail rest = none) (noQuote : '"' ∉ behind) :
    stringTail (rest ++ behind) = none := by
  rw [Option.eq_none_iff_forall_ne_some]
  intro tail closed
  obtain ⟨within, inner, quotable, ends⟩ := stringTail_eq_some_iff.mp closed
  have before : tail <+: rest := by
    rcases List.prefix_or_prefix_of_prefix within
        (List.prefix_append rest behind) with before | ⟨more, same⟩
    · exact before
    · -- The quote at the end of the tail would stand in the text behind.
      rw [← same, List.prefix_append_right_inj] at within
      rcases List.eq_nil_or_concat more with empty | ⟨front, last, split⟩
      · refine ⟨[], ?_⟩
        rw [List.append_nil, ← same, empty, List.append_nil]
      · rw [List.concat_eq_append] at split
        rw [← same, split, ← List.append_assoc] at ends
        have quote := List.singleton_inj.mp (List.append_inj' ends rfl).2
        rw [split, quote] at within
        exact absurd (within.subset
          (List.mem_append_right front List.mem_cons_self)) noQuote
  rw [stringTail_eq_some_iff.mpr ⟨before, inner, quotable, ends⟩] at unclosed
  cases unclosed

theorem quoted_append (quote : Char) (rest : List Char)
    {behind : List Char} (noQuote : '"' ∉ behind) :
    quoted (quote :: (rest ++ behind)) = quoted (quote :: rest) ∨
      (quoted (quote :: (rest ++ behind))).kind = .illegal := by
  cases closed : stringTail rest with
  | none =>
      right
      rw [quoted, stringTail_append_none closed noQuote]
  | some tail =>
      left
      obtain ⟨others, rfl⟩ := stringTail_isPrefix closed
      have closedToo := stringTail_append closed (others ++ behind)
      rw [List.append_assoc, quoted, quoted, closedToo, closed]

private theorem not_isUnclosed_of_proper {lexeme : Lexeme}
    (proper : lexeme.kind ≠ .illegal) : lexeme.isUnclosed = false := by
  simp [isUnclosed, proper]

end Lexeme

theorem trimStart_append (before : List Char) {last : Char}
    (shown : isBlank last = false) (behind : List Char) :
    ∃ kept, trimStart (before ++ last :: behind) = kept ++ last :: behind := by
  induction before with
  | nil =>
      exact ⟨[], List.dropWhile_cons_of_neg (by simp [shown])⟩
  | cons character others inductionHypothesis =>
      rw [trimStart, List.cons_append, List.dropWhile_cons]
      split
      next => exact inductionHypothesis
      next => exact ⟨character :: others, rfl⟩

private theorem getLast_trimBlanks (before : List Char) {last : Char}
    (shown : isBlank last = false) {blanks : List Char}
    (blank : ∀ character ∈ blanks, isBlank character = true) :
    (trimBlanks (before ++ last :: blanks)).getLast? = some last := by
  obtain ⟨kept, started⟩ := trimStart_append before shown blanks
  have reversed : (kept ++ last :: blanks).reverse =
      blanks.reverse ++ last :: kept.reverse := by
    simp
  rw [trimBlanks, started, trimEnd, reversed,
    List.dropWhile_append_of_pos fun character member =>
      blank character (List.mem_reverse.mp member),
    List.dropWhile_cons_of_neg (by simp [shown])]
  simp

/-! ### Texts that are read -/

section

variable [IdentifierCharacters]

/-- The tokens of a source text that is read as a contract are derived. -/
theorem exists_tree_of_parse {source : String} {contract : Contract}
    (parsed : Contract.parse source = .ok contract) :
    ∃ tree : ContractTree,
      tree.tokens.map Token.lexeme = lexemesOf source.toList := by
  unfold Contract.parse at parsed
  split at parsed
  next found read =>
    obtain ⟨tree, same, _, _⟩ := contract_derived
      (Reading.gives_iff_outcome.mpr (Prod.ext read rfl))
    refine ⟨tree, ?_⟩
    have upcoming : (TokenStream.ofTokens (tokenize source)).upcoming.map
        Token.lexeme = ((tokenize source).map Token.lexeme).takeWhile
          fun lexeme => !(lexeme.kind == .endOfInput) := by
      rw [List.takeWhile_map]
      rfl
    rw [same, upcoming, tokenize, lexemes_tokensFrom]
    apply takeWhile_eq_of_head
    · intro lexeme member
      simpa using proper_of_mem_lexemesOf member
    · intro lexeme member
      cases member
      rfl
  next => cases parsed

/-! ### Texts behind texts -/

namespace Lexeme

theorem operator_append (first : Char) (rest : List Char)
    {behind : List Char} (apart : Apart behind) :
    operator first (rest ++ behind) = operator first rest := by
  cases rest with
  | nil =>
      cases behind with
      | nil => rfl
      | cons second others =>
          have alone : operator first (second :: others) =
              ⟨singleKind first, [first]⟩ := by
            rw [operator, pairKind_of_separates first (apart second rfl)]
          exact alone
  | cons second others =>
      rfl

/-- What is read at the front of a text is read there as well when another
text stands behind it, unless a string is still open. -/
theorem read_append (first : Char) (rest : List Char) {behind : List Char}
    (apart : Apart behind) (noQuote : '"' ∉ behind) :
    read first (rest ++ behind) = read first rest ∨
      (read first (rest ++ behind)).kind = .illegal := by
  unfold read
  split
  next =>
    left
    rw [number, number, ← List.cons_append,
      takeWhile_append_of_head _ apart.not_digit]
  next =>
    split
    next => exact quoted_append first rest noQuote
    next =>
      left
      split
      next =>
        rw [word, word, takeWhile_append_of_head rest apart.not_part]
      next => exact operator_append first rest apart

theorem behind_append (first : Char) (rest behind : List Char) :
    (read first rest).behind (first :: (rest ++ behind)) =
      (read first rest).behind (first :: rest) ++ behind := by
  obtain ⟨piece, spelled, within⟩ := read_isPrefix first rest
  have short : (read first rest).text.length ≤ (first :: rest).length := by
    rw [spelled, List.length_cons, List.length_cons]
    exact Nat.succ_le_succ within.length_le
  exact List.drop_append_of_le_length short

end Lexeme

/-- The lexemes of two texts one behind the other are those of each of them,
unless a string is open in between. -/
theorem lexemesOf_append (text : List Char) {behind : List Char}
    (apart : Apart behind) (noQuote : '"' ∉ behind) :
    lexemesOf (text ++ behind) = lexemesOf text ++ lexemesOf behind ∨
      ∃ lexeme ∈ lexemesOf (text ++ behind), lexeme.kind = .illegal := by
  fun_induction lexemesOf text with
  | case1 text used =>
      left
      have blank : ∀ character ∈ text, isBlank character = true := by
        simpa using used
      rw [lexemesOf_blanks blank, List.nil_append]
  | case2 text first rest found inductionHypothesis =>
      have foundToo : (text ++ behind).dropWhile isBlank =
          first :: (rest ++ behind) := by
        rw [List.dropWhile_append, found]
        rfl
      rw [lexemesOf_of_found foundToo]
      rcases Lexeme.read_append first rest apart noQuote with same | illegal
      · rw [same, Lexeme.behind_append]
        rcases inductionHypothesis with split | ⟨lexeme, member, illegal⟩
        · left
          rw [split, List.cons_append]
        · right
          exact ⟨lexeme, List.mem_cons_of_mem _ member, illegal⟩
      · right
        exact ⟨_, List.mem_cons_self, illegal⟩

/-! ### The end of a text -/

theorem blank_of_lexemesOf_eq_nil {text : List Char}
    (empty : lexemesOf text = []) :
    ∀ character ∈ text, isBlank character = true := by
  cases found : text.dropWhile isBlank with
  | nil =>
      exact List.dropWhile_eq_nil_iff.mp found
  | cons first rest =>
      rw [lexemesOf_of_found found] at empty
      cases empty

/-- Nothing but blanks stands behind the last lexeme of a text. -/
theorem exists_of_lexemesOf_ends {text : List Char} {front : List Lexeme}
    {last : Lexeme} (ends : lexemesOf text = front ++ [last]) :
    ∃ (before : List Char) (first : Char) (rest blanks : List Char),
      last = Lexeme.read first rest ∧
      text = before ++ (last.text ++ blanks) ∧
      ∀ character ∈ blanks, isBlank character = true := by
  fun_induction lexemesOf text generalizing front with
  | case1 text used =>
      cases front <;> cases ends
  | case2 text first rest found inductionHypothesis =>
      have whole : text = text.takeWhile isBlank ++
          ((Lexeme.read first rest).text ++
            (Lexeme.read first rest).behind (first :: rest)) := by
        rw [Lexeme.text_append_behind, ← found]
        exact List.takeWhile_append_dropWhile.symm
      cases front with
      | nil =>
          rw [List.nil_append, List.cons.injEq] at ends
          obtain ⟨rfl, empty⟩ := ends
          exact ⟨_, first, rest, _, rfl, whole,
            blank_of_lexemesOf_eq_nil empty⟩
      | cons other others =>
          rw [List.cons_append, List.cons.injEq] at ends
          obtain ⟨before, inner, more, blanks, same, behind, blank⟩ :=
            inductionHypothesis ends.2
          refine ⟨text.takeWhile isBlank ++
            ((Lexeme.read first rest).text ++ before), inner, more, blanks,
            same, ?_, blank⟩
          rw [behind] at whole
          rw [List.append_assoc, List.append_assoc]
          exact whole

private theorem text_of_rightBrace {first : Char} {rest : List Char}
    (closes : (Lexeme.read first rest).kind = .rightBrace) :
    (Lexeme.read first rest).text = ['\x7d'] := by
  have proper : (Lexeme.read first rest).kind ≠ .illegal := by
    rw [closes]
    decide
  have legal := ((Lexeme.read_isLongest first rest).legal proper).1
  rw [closes] at legal
  generalize (Lexeme.read first rest).text = text at legal
  cases legal with
  | keyword reserved => exact absurd reserved (by decide)
  | mark listed => rfl

/-! ### Entries -/

namespace Console

private theorem lexemesOf_blank (text : List Char) :
    lexemesOf (' ' :: text) = lexemesOf text := by
  have blank : isBlank ' ' = true := by
    decide +kernel
  exact lexemesOf_blanks (List.forall_mem_singleton.mpr blank) text

/-- The lexemes of functions with the braces of a contract around them. -/
theorem lexemesOf_wrapped (entry : List Char) :
    lexemesOf ("contract \x7b ".toList ++ entry ++ " \x7d".toList) =
      .fixed .contract :: .fixed .leftBrace ::
        lexemesOf (entry ++ " \x7d".toList) := by
  have spelled : "contract \x7b ".toList ++ entry ++ " \x7d".toList =
      (Lexeme.fixed .contract).text ++
        ' ' :: ((Lexeme.fixed .leftBrace).text ++
          ' ' :: (entry ++ " \x7d".toList)) := by
    simp [Lexeme.fixed, TokenKind.name]
  rw [spelled,
    (Lexeme.fixed_precedes rfl
      (Apart.delimiter ' ' _ (by simp))).lexemesOf_append, lexemesOf_blank,
    (Lexeme.fixed_precedes rfl
      (Apart.delimiter ' ' _ (by simp))).lexemesOf_append, lexemesOf_blank]

private theorem lexemesOf_closing :
    lexemesOf " \x7d".toList = [.fixed .rightBrace] := by
  have spelled : " \x7d".toList =
      ' ' :: ((Lexeme.fixed .rightBrace).text ++ []) := by
    simp [Lexeme.fixed, TokenKind.name]
  rw [spelled, lexemesOf_blank,
    (Lexeme.fixed_precedes rfl .nil).lexemesOf_append, lexemesOf_nil]

/-- The functions of a contract whose braces are written around them. -/
theorem lexemes_of_wrapped {entry : List Char} {tree : ContractTree}
    (same : tree.tokens.map Token.lexeme =
      lexemesOf ("contract \x7b ".toList ++ entry ++ " \x7d".toList)) :
    (tree.functions.flatMap FunctionTree.tokens).map Token.lexeme =
      lexemesOf entry := by
  have noQuote : '"' ∉ " \x7d".toList := by
    simp
  have apart : Apart " \x7d".toList := Apart.delimiter ' ' _ (by simp)
  rw [lexemesOf_wrapped] at same
  rcases lexemesOf_append entry apart noQuote with
    split | ⟨lexeme, member, illegal⟩
  · rw [split, lexemesOf_closing, ContractTree.tokens, List.map_cons,
      List.map_cons, List.map_append] at same
    have inner := (List.cons.inj (List.cons.inj same).2).2
    exact (List.append_inj' inner rfl).1
  · have inside : lexeme ∈ tree.tokens.map Token.lexeme := by
      rw [same]
      exact List.mem_cons_of_mem _ (List.mem_cons_of_mem _ member)
    obtain ⟨token, listed, rfl⟩ := List.mem_map.mp inside
    exact absurd illegal (tree.bracketed.proper token listed)

/-- A text with nested tokens, the last of them a brace, is finished. -/
theorem finished_of_tokens {entry : List Char} {front : List Token}
    {last : Token} (bracketed : Bracketed (front ++ [last]))
    (closes : last.kind = .rightBrace)
    (same : (front ++ [last]).map Token.lexeme = lexemesOf entry) :
    isBalanced entry = true ∧ isIncomplete entry = false := by
  have balanced : isBalanced entry = true := by
    apply (balancedFrom_iff_nesting [] entry).mpr
    right
    rw [← same]
    constructor
    · rw [List.map_map]
      exact bracketed.nested []
    · intro lexeme member
      obtain ⟨token, listed, rfl⟩ := List.mem_map.mp member
      exact Lexeme.not_isUnclosed_of_proper (bracketed.proper token listed)
  rw [List.map_append] at same
  obtain ⟨before, first, rest, blanks, read, text, blank⟩ :=
    exists_of_lexemesOf_ends same.symm
  have brace : last.lexeme.text = ['\x7d'] := by
    rw [read]
    apply text_of_rightBrace
    rw [← read]
    exact closes
  have shown : isBlank '\x7d' = false := by
    decide +kernel
  have final : (trimBlanks entry).getLast? = some '\x7d' := by
    rw [text, brace]
    exact getLast_trimBlanks before shown blank
  constructor
  · exact balanced
  · rw [isIncomplete, balanced, final]
    decide

/-- The tokens of an entry that is read as a contract. -/
theorem exists_tokens_of_entry {entry : List Char} {contract : Contract}
    (parsed : Contract.parse (String.ofList (asContract entry)) =
      .ok contract) :
    ∃ front last, Bracketed (front ++ [last]) ∧ last.kind = .rightBrace ∧
      (front ++ [last]).map Token.lexeme = lexemesOf entry := by
  obtain ⟨tree, same⟩ := exists_tree_of_parse parsed
  rw [String.toList_ofList, asContract] at same
  split at same
  next function =>
    have listed := lexemes_of_wrapped same
    have some : tree.functions ≠ [] := by
      intro none
      rw [none, List.flatMap_nil, List.map_nil] at listed
      have empty : trimStart entry = [] :=
        List.dropWhile_eq_nil_iff.mpr
          (blank_of_lexemesOf_eq_nil listed.symm)
      rw [empty] at function
      exact absurd function (by decide)
    obtain ⟨front, last, split, closes⟩ := FunctionTree.ends_all some
    have bracketed := FunctionTree.bracketed_all tree.functions
    rw [split] at bracketed listed
    exact ⟨front, last, bracketed, closes, listed⟩
  next =>
    exact ⟨tree.word.val :: tree.opening.val ::
      tree.functions.flatMap FunctionTree.tokens, tree.closing.val,
      tree.bracketed, tree.closing.property, same⟩

/-- Whether an entry goes on is told from its characters as from its tokens.
An entry that is read as a contract does not go on, however it is typed. -/
theorem finished_entries_accepted :
    (∀ text : String, isBalanced text.toList = true ↔
      nesting [] ((tokenize text).map Token.kind) = none ∨
        (nesting [] ((tokenize text).map Token.kind) = some [] ∧
          ∀ token ∈ tokenize text, ¬ token.Unclosed)) ∧
    (∀ (entry : List Char) (contract : Contract),
      Contract.parse (String.ofList (asContract entry)) = .ok contract →
        isBalanced entry = true ∧ isIncomplete entry = false ∧
          ∀ draft line, eraseBackspaces (splitLineEnd (draft ++ line)).1 =
            entry → extendEntry draft line = .finished entry) := by
  constructor
  · exact isBalanced_iff_nesting
  · intro entry contract parsed
    obtain ⟨front, last, bracketed, closes, same⟩ :=
      exists_tokens_of_entry parsed
    obtain ⟨balanced, finished⟩ := finished_of_tokens bracketed closes same
    refine ⟨balanced, finished, ?_⟩
    intro draft line typed
    exact extendEntry_of_finished typed finished

end Console

end

namespace Console

def quotingEntry : List Char :=
  "func f()\x7b\n\"(\"\x7d".toList

open IdentifierTables

theorem quoting_entry_accepted :
    Contract.parse (String.ofList (asContract quotingEntry)) =
        .ok ⟨[⟨"f", [], .void, [.evaluates (.text "(")]⟩]⟩ ∧
      isBalanced quotingEntry = true ∧
      isIncomplete quotingEntry = false := by
  have parsed : Contract.parse (String.ofList (asContract quotingEntry)) =
      .ok ⟨[⟨"f", [], .void, [.evaluates (.text "(")]⟩]⟩ := by
    decide +kernel
  have accepted := finished_entries_accepted.2 quotingEntry _ parsed
  exact ⟨parsed, accepted.1, accepted.2.1⟩

end Console

end ContractCompiler
